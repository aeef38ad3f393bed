import EventSheet.Json.Printer
import EventSheet.Snapshot
namespace EventSheet

/-! Snapshots as JSON. A record leaves out flags that do not hold and a payload
of `null`. Saved text is pretty. -/

open Json.Decoder

namespace EventRecord

def toJson (record : EventRecord) : Json :=
  .object
    ([("type", .string record.kind)] ++
      (if record.disabled then [("disabled", .bool true)] else []) ++
      (if record.folded then [("folded", .bool true)] else []) ++
      [("depth", .nat record.depth)] ++
      (if record.payload.isNull then [] else [("payload", record.payload)]))

def decode : Json.Decoder EventRecord :=
  record ["type", "disabled", "folded", "depth", "payload"] fun levels entries => do
    match entries with
    | [kind, disabled, folded, depth, payload] =>
        let kind ← required string levels kind
        let disabled ← withDefault false bool levels disabled
        let folded ← withDefault false bool levels folded
        let depth ← withDefault 0 (natBelow UInt64.size) levels depth
        let payload ← withDefault .null free levels payload
        return { kind, disabled, folded, depth, payload }
    | _ => none

end EventRecord

namespace Snapshot

def toJson (snapshot : Snapshot) : Json :=
  .object
    [("version", .nat snapshot.version),
     ("events", .array (snapshot.events.map EventRecord.toJson))]

def decode : Json.Decoder Snapshot :=
  record ["version", "events"] fun levels entries => do
    match entries with
    | [version, events] =>
        let version ← required (natBelow UInt32.size) levels version
        let events ← required (list EventRecord.decode) levels events
        return { version, events }
    | _ => none

end Snapshot

variable {β : Type} [EventKind β]

/-- The text a forest is saved as. -/
def Forest.saveJson (forest : Forest β) : String :=
  Json.pretty (Forest.snapshot forest).toJson

inductive LoadError where
  | malformed
  | restore (error : RestoreError)
deriving DecidableEq

def LoadError.failure : LoadError → Failure
  | .malformed => ⟨.json, ["Failed to parse events"]⟩
  | .restore error => error.failure

/-- Load a forest from saved text. -/
def Forest.loadJson (registry : Registry β) (text : String) :
    StateM Population (Except LoadError (Forest β)) :=
  match Json.Decoder.ofText? Snapshot.decode text with
  | none => return .error .malformed
  | some snapshot => do return (← snapshot.restore registry).mapError .restore

end EventSheet
