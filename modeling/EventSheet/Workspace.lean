import EventSheet.Behavior
import EventSheet.Named
import EventSheet.Node.Walk
namespace EventSheet

/-! The workspace of an editor: the sheets that are open, the nodes held outside
of any sheet, and the population all of them live in. Storing under a used name
destroys what was there; moving a node destroys nothing. -/

structure Workspace (β : Type) where
  population : Population := {}
  sheets : Named (Forest β) := []
  held : Named (Node β) := []

/-- What a place is relative to. -/
inductive Root where
  | sheet (name : String)
  | held (name : String)
deriving DecidableEq

structure Address where
  root : Root
  place : Place
deriving DecidableEq

/-- Why an address or a name leads nowhere. -/
inductive Astray where
  | unknown (name : String)
  | noNode
deriving DecidableEq

/-- An edit that goes astray keeps what it did until then. -/
abbrev Edit (β : Type) := ExceptT Astray (StateM (Workspace β))

namespace Workspace

variable {β : Type}

def onPopulation {α : Type} (action : StateM Population α) : Edit β α :=
  modifyGet fun ⟨population, sheets, held⟩ =>
    let (result, population) := action population
    (result, { population, sheets, held })

/-- The value of a name that has to be there. -/
def known {α : Type} (name : String) (found : Option α) : Edit β α :=
  match found with
  | some value => return value
  | none => throw (.unknown name)

def sheet (name : String) : Edit β (Forest β) := do known name ((← get).sheets.lookup name)

def heldNode (name : String) : Edit β (Node β) := do known name ((← get).held.lookup name)

def storeSheet (name : String) (forest : Forest β) : Edit β Unit := do
  let old := (← get).sheets.lookup name
  modify fun workspace => { workspace with sheets := workspace.sheets.put name forest }
  onPopulation (Forest.destroy (old.getD []))

def storeNode (name : String) (node : Node β) : Edit β Unit := do
  let old := (← get).held.lookup name
  modify fun workspace => { workspace with held := workspace.held.put name node }
  onPopulation (Forest.destroy old.toList)

/-! ## Taking out -/

def takeSheet (name : String) : Edit β (Forest β) := do
  let forest ← sheet name
  modify fun workspace => { workspace with sheets := workspace.sheets.without name }
  return forest

def takeNode (name : String) : Edit β (Node β) := do
  let node ← heldNode name
  modify fun workspace => { workspace with held := workspace.held.without name }
  return node

/-- Take held nodes out. When a name is unknown, the nodes in front of it are
lost. -/
def takeNodes : List String → Edit β (Forest β)
  | [] => return []
  | name :: rest => do
      let node ← takeNode name
      try return node :: (← takeNodes rest)
      catch astray =>
        onPopulation node.destroy
        throw astray

def drop : Root → Edit β Unit
  | .sheet name => do onPopulation (Forest.destroy (← takeSheet name))
  | .held name => do onPopulation (← takeNode name).destroy

/-- Make a node and move held nodes below it. The node is made first, and lost
when a name is unknown. -/
def assemble [EventKind β] (behavior : β) (names : List String) : Edit β (Node β) := do
  let node ← onPopulation (Node.create behavior)
  try
    let children ← takeNodes names
    onPopulation (node.withSubEvents children)
  catch astray =>
    onPopulation node.destroy
    throw astray

/-! ## Nodes and forests at an address -/

/-- The node at an address. A sheet as a whole is none, whether it is there or
not. -/
def nodeAt (address : Address) : Edit β (Node β) := do
  let found ← match address with
    | ⟨.sheet _, []⟩ => pure none
    | ⟨.sheet name, place⟩ => Forest.atPlace? place <$> sheet name
    | ⟨.held name, place⟩ => Node.atPlace? place <$> heldNode name
  match found with
  | some node => return node
  | none => throw .noNode

/-- Put a changed node back where it was found. -/
def setNodeAt (address : Address) (node : Node β) : Edit β Unit :=
  modify fun workspace =>
    match address.root with
    | .sheet name =>
        { workspace with
          sheets := workspace.sheets.change name (Forest.modifyAt (fun _ => node) address.place) }
    | .held name =>
        { workspace with
          held := workspace.held.change name (Node.modifyAt (fun _ => node) address.place) }

/-- The forest at an address: a sheet, or the sub-events of a node. -/
def forestAt (address : Address) : Edit β (Forest β) := do
  match address with
  | ⟨.sheet name, []⟩ => sheet name
  | _ => return (← nodeAt address).subEvents

variable [EventKind β]

/-- Change the forest at an address. Nothing happens when it would be the
sub-events of a node that cannot have any. -/
def editForest? {α : Type} (address : Address) (edit : Forest β → Edit β (α × Forest β)) :
    Edit β (Option α) := do
  match address with
  | ⟨.sheet name, []⟩ =>
      let (result, forest) ← edit (← sheet name)
      modify fun workspace =>
        { workspace with sheets := workspace.sheets.change name fun _ => forest }
      return some result
  | _ =>
      let node ← nodeAt address
      if node.ownsSubEvents then
        let (result, subEvents) ← edit node.subEvents
        setNodeAt address { node with subEvents }
        return some result
      else return none

/-- Take a held node out to put it below an address. It cannot go below itself:
it is lost in the attempt. -/
def takeFor (name : String) (address : Address) : Edit β (Node β) := do
  let node ← takeNode name
  if address.root = .held name then
    onPopulation node.destroy
    throw (.unknown name)
  return node

def replaceForest? (address : Address) (forest : Forest β) : Edit β (Option Unit) :=
  editForest? address fun _ => return ((), forest)

/-- Disable the top nodes of a forest. -/
def disableAll? (address : Address) : Edit β (Option (Forest β)) :=
  editForest? address fun forest =>
    let forest := forest.map (Node.setDisabled true)
    return (forest, forest)

/-- Disable the node of an id. There is no answer for a node that owns no
sub-events, as for the other edits of a forest; the answer for a forest is the
node, if it has one of that id. -/
def disableById? (id : NodeId) (address : Address) : Edit β (Option (Option (Node β))) :=
  editForest? address fun forest =>
    let forest := Forest.editNode id (Node.setDisabled true) forest
    return (Forest.find? id forest, forest)

/-- Move a held node into a forest; the answer is the forest. -/
def insert? (name : String) (position : Nat) (address : Address) : Edit β (Option (Forest β)) :=
  editForest? address fun forest => do
    let forest := Forest.insert position (← takeFor name address) forest
    return (forest, forest)

/-- Take a node out of a forest; the answer is the node, if there is one, and
what is left. -/
def remove? (position : Nat) (address : Address) :
    Edit β (Option (Option (Node β) × Forest β)) :=
  editForest? address fun forest =>
    match Forest.remove? position forest with
    | some (node, rest) => return ((some node, rest), rest)
    | none => return ((none, forest), forest)

def clear? (address : Address) : Edit β (Option Unit) :=
  editForest? address fun forest => do
    onPopulation (Forest.destroy forest)
    return ((), [])

/-- Move a held node below a node. A node whose kind cannot own it leaves it
where it was, and the answer is the node refused. -/
def push (name : String) (address : Address) : Edit β (Option (Node β)) := do
  let _ ← nodeAt address
  let child ← takeFor name address
  match (← nodeAt address).pushSubEvent? child with
  | some parent =>
      setNodeAt address parent
      return none
  | none =>
      storeNode name child
      return some child

end Workspace

end EventSheet
