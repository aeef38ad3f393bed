import EventSheet.Node.Walk
import EventSheet.Registry
namespace EventSheet

/-! Snapshots: the persisted form of a forest. A forest is stored as the records
of its nodes in pre-order, each with its nesting depth; the sub-events of a node
are the records behind it that are one deeper, up to the next record that is not
deeper than the node. Samples and lineage are not stored. -/

/-- The persisted state of one event. -/
structure EventRecord where
  kind : String
  disabled : Bool := false
  folded : Bool := false
  depth : Nat := 0
  payload : Json := .null
deriving DecidableEq

structure Snapshot where
  version : Nat
  events : List EventRecord
deriving DecidableEq

/-- The version written, and the latest one that can be read. -/
def formatVersion : Nat := 1

/-- A snapshot of the version that is written. -/
def Snapshot.current (events : List EventRecord) : Snapshot := { version := formatVersion, events }

section

variable {β : Type} [EventKind β]

/-- The record of a node at a depth. -/
def Node.record (node : Node β) (depth : Nat) : EventRecord where
  kind := node.kind
  disabled := node.event.disabled
  folded := node.event.folded
  depth := depth
  payload := node.payload

def Forest.snapshot (forest : Forest β) : Snapshot :=
  .current ((Forest.visits forest).map fun visit => visit.1.record visit.2)

theorem Forest.snapshot_eq_walk (forest : Forest β) :
    snapshot forest = .current ((walk forest).map fun visit => visit.1.record visit.2) := by
  rw [snapshot, visits_eq_walk]

/-! ## Restoring -/

inductive RestoreError where
  | unsupportedVersion (version : Nat)
  /-- A record is more than one level below the one before, at which `open` levels
  are open. -/
  | nestedTooDeeply (position depth openLevels : Nat)
  | parentOwnsNone (position : Nat) (kind : String)
  | creation (position : Nat) (error : CreationError)
deriving DecidableEq

/-- A forest being rebuilt: its finished roots, and the nodes whose sub-events
are still being read, innermost first. -/
structure Rebuilding (β : Type) where
  roots : Forest β := []
  openNodes : List (Node β) := []

namespace Rebuilding

/-- The innermost open node has all its sub-events: hand it to its parent. -/
def closeInnermost (rebuilding : Rebuilding β) : Rebuilding β :=
  match rebuilding.openNodes with
  | [] => rebuilding
  | [node] => { roots := rebuilding.roots ++ [node], openNodes := [] }
  | node :: parent :: outer =>
      { rebuilding with
        openNodes := { parent with subEvents := parent.subEvents ++ [node] } :: outer }

/-- Close nodes until at most `depth` are open. -/
def closeTo (depth : Nat) (rebuilding : Rebuilding β) : Rebuilding β :=
  Nat.repeat closeInnermost (rebuilding.openNodes.length - depth) rebuilding

/-- Every node there is so far. -/
def nodes (rebuilding : Rebuilding β) : Forest β :=
  rebuilding.roots ++ rebuilding.openNodes.reverse

/-- Take in the next record. The depth is checked before the parent, and the
parent before the behavior is created. -/
def add (registry : Registry β) (position : Nat) (record : EventRecord)
    (rebuilding : Rebuilding β) : StateM Population (Except RestoreError (Rebuilding β)) :=
  let openLevels := rebuilding.openNodes.length
  if openLevels < record.depth then
    return .error (.nestedTooDeeply position record.depth openLevels)
  else
    let rebuilding := rebuilding.closeTo record.depth
    match rebuilding.openNodes.head?.filter fun parent => !parent.ownsSubEvents with
    | some parent => return .error (.parentOwnsNone position parent.kind)
    | none =>
        match registry.create record.kind record.payload with
        | .error error => return .error (.creation position error)
        | .ok behavior => do
            let node ← Node.create behavior
            let node := (node.setDisabled record.disabled).setFolded record.folded
            return .ok { rebuilding with openNodes := node :: rebuilding.openNodes }

/-- Take in records from a position on. When one is refused, the nodes made
before it are destroyed. -/
def addAll (registry : Registry β) (position : Nat) :
    List EventRecord → Rebuilding β → StateM Population (Except RestoreError (Forest β))
  | [], rebuilding => return .ok (rebuilding.closeTo 0).roots
  | record :: rest, rebuilding => do
      match ← rebuilding.add registry position record with
      | .ok rebuilding => addAll registry (position + 1) rest rebuilding
      | .error error =>
          Forest.destroy rebuilding.nodes
          return .error error

end Rebuilding

/-- Rebuild the forest of a snapshot. -/
def Snapshot.restore (registry : Registry β) (snapshot : Snapshot) :
    StateM Population (Except RestoreError (Forest β)) :=
  if formatVersion < snapshot.version then
    return .error (.unsupportedVersion snapshot.version)
  else Rebuilding.addAll registry 0 snapshot.events {}

end

/-! ## Messages -/

def RestoreError.failure : RestoreError → Failure
  | .unsupportedVersion version =>
      ⟨.rejected, ["Unsupported events format version " ++ Nat.repr version ++
        " (latest known is " ++ Nat.repr formatVersion ++ ")"]⟩
  | .nestedTooDeeply position depth openLevels =>
      ⟨.rejected, ["Event " ++ Nat.repr position ++ " is nested at depth " ++ Nat.repr depth ++
        " but its parent is at depth " ++ toString ((openLevels : Int) - 1)]⟩
  | .parentOwnsNone position kind =>
      ⟨.rejected, ["Event " ++ Nat.repr position ++ " is a sub-event of a `" ++ kind ++
        "` event, which cannot have sub-events"]⟩
  | .creation position error =>
      error.failure.inContext ("Failed to load event " ++ Nat.repr position)

end EventSheet
