import EventSheet.Codegen.Emit
import EventSheet.Preprocess
namespace EventSheet

/-! The contract of event kinds. A kind only describes its own lists and how
they compile; flags, identity, lineage and sub-events are the node's. -/

/-- What can be read off and edited in the behavior of an event. -/
class EventKind (β : Type) where
  /-- Names the kind, for dispatch and persistence. -/
  kind : β → String
  /-- The kind produces code. -/
  isExecutable : β → Bool := fun _ => false
  /-- Nodes of the kind own sub-events. -/
  ownsSubEvents : β → Bool := fun _ => false
  conditionLists : β → List InstructionList := fun _ => []
  actionLists : β → List InstructionList := fun _ => []
  /-- Edit every condition list, each given with its position. -/
  editConditionLists : (Nat → InstructionList → InstructionList) → β → β := fun _ behavior => behavior
  editActionLists : (Nat → InstructionList → InstructionList) → β → β := fun _ behavior => behavior
  /-- Hand every expression of the event to an edit, in order. -/
  editExpressions :
    {State : Type} → (Expression → StateM State Expression) → β → StateM State β :=
      fun _ behavior => pure behavior
  /-- The height of the rendered event at a width. -/
  renderedHeight : β → UInt32 → UInt32 := fun _ _ => 0
  /-- The persisted state of the kind. -/
  payload : β → Json := fun _ => .null

/-- What the behavior of an event does. -/
class Behavior (β : Type) extends EventKind β where
  /-- Generate the code of an enabled, executable event. The sub-events are given
  as what compiles them, and left out when there are none. -/
  generate :
    β → {σ : Type} → Codegen.Emitter σ → Option (Codegen.Emit σ String) → Codegen.Emit σ String :=
      fun _ _ _ _ => pure ""
  /-- Called once before compilation, with the siblings of the node. -/
  preprocess : β → Siblings β → Pass β (β × Splice β) :=
    fun behavior _ => pure (behavior, .keep)

/-- What the instructions of a list are for. -/
inductive ListRole where
  | conditions
  | actions
deriving DecidableEq

namespace Node

variable {β : Type} [EventKind β]

def kind (node : Node β) : String := EventKind.kind node.behavior
def isExecutable (node : Node β) : Bool := EventKind.isExecutable node.behavior
def ownsSubEvents (node : Node β) : Bool := EventKind.ownsSubEvents node.behavior
def conditionLists (node : Node β) : List InstructionList :=
  EventKind.conditionLists node.behavior
def actionLists (node : Node β) : List InstructionList :=
  EventKind.actionLists node.behavior

def lists (role : ListRole) (node : Node β) : List InstructionList :=
  match role with
  | .conditions => node.conditionLists
  | .actions => node.actionLists

/-- Edit the list at a position among those of a role. -/
def editList (role : ListRole) (position : Nat) (edit : InstructionList → InstructionList)
    (node : Node β) : Node β :=
  let editOne (index : Nat) (list : InstructionList) : InstructionList :=
    if index = position then edit list else list
  node.setBehavior <| match role with
    | .conditions => EventKind.editConditionLists editOne node.behavior
    | .actions => EventKind.editActionLists editOne node.behavior

def payload (node : Node β) : Json := EventKind.payload node.behavior
def renderedHeight (node : Node β) (width : UInt32) : UInt32 :=
  EventKind.renderedHeight node.behavior width

/-- Change the sub-events of a node; nothing when its kind cannot have any. -/
def editSubEvents? (edit : Forest β → Forest β) (node : Node β) : Option (Node β) :=
  if node.ownsSubEvents then some { node with subEvents := edit node.subEvents } else none

/-- Append a sub-event; nothing when the kind cannot own it. -/
def pushSubEvent? (node child : Node β) : Option (Node β) :=
  node.editSubEvents? (· ++ [child])

/-- Append sub-events; they are destroyed when the kind cannot own them. -/
def withSubEvents (node : Node β) (children : Forest β) : StateM Population (Node β) :=
  match node.editSubEvents? (· ++ children) with
  | some node => return node
  | none => do
      Forest.destroy children
      return node

end Node

/-! ## Structural equality

Trees are compared with a list of pairs of nodes that are pending, so that it takes no
deep recursion to compare deep trees. -/

/-- Same persisted state and same samples, sub-events apart. Ids and what the events
remember play no part. -/
def Event.agrees {β : Type} [EventKind β] (population : Population)
    (left right : Event β) : Bool :=
  decide (EventKind.kind left.behavior = EventKind.kind right.behavior) &&
    decide (left.disabled = right.disabled) &&
    decide (left.folded = right.folded) &&
    (population.sample left.id).floatEqual (population.sample right.id) &&
    decide (EventKind.conditionLists left.behavior = EventKind.conditionLists right.behavior) &&
    decide (EventKind.actionLists left.behavior = EventKind.actionLists right.behavior) &&
    decide (EventKind.payload left.behavior = EventKind.payload right.behavior)

theorem Forest.count_zip_le {β : Type} : ∀ left right : List (Node β),
    Forest.count ((left.zip right).map Prod.fst) ≤ Forest.count left
  | [], _ => Nat.le_refl _
  | _ :: _, [] => Nat.zero_le _
  | head :: tail, _ :: others =>
      Nat.add_le_add_left (Forest.count_zip_le tail others) head.count

/-- Compare pairs of nodes with all that is below them. The sub-events of a pair are
paired position by position when there are as many of them; the last ones come next. -/
def Node.pairsEqual {β : Type} [EventKind β] (population : Population) :
    List (Node β × Node β) → Bool
  | [] => true
  | (left, right) :: pending =>
      left.event.agrees population right.event &&
        decide (left.subEvents.length = right.subEvents.length) &&
        Node.pairsEqual population
          ((left.subEvents.zip right.subEvents).reverse ++ pending)
termination_by pending => Forest.count (pending.map Prod.fst)
decreasing_by
  rcases left with ⟨event, subEvents⟩
  have below := Forest.count_zip_le subEvents right.subEvents
  rw [List.map_append, List.map_reverse, Forest.count_append, Forest.count_reverse,
    List.map_cons, Forest.count, Node.count]
  exact Nat.add_lt_add_right (Nat.lt_succ_of_le below) _

/-- Same persisted state and same samples, recursively. -/
def Node.structurallyEqual {β : Type} [EventKind β] (population : Population)
    (left right : Node β) : Bool :=
  Node.pairsEqual population [(left, right)]

end EventSheet
