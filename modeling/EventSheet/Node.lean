import EventSheet.Population
namespace EventSheet

/-! The event tree. A node wraps the behavior of one event with the state all
events share and owns the forest of its sub-events; a forest is an ordered list
of nodes. -/

/-- Everything of a node but its sub-events. -/
structure Event (β : Type) where
  id : NodeId
  behavior : β
  disabled : Bool := false
  folded : Bool := false
  /-- The node this one was copied from, for copies that remember it. -/
  remembered : Option NodeId := none

structure Node (β : Type) where
  event : Event β
  subEvents : List (Node β) := []

abbrev Forest (β : Type) := List (Node β)

namespace Node

def id {β : Type} (node : Node β) : NodeId := node.event.id
def behavior {β : Type} (node : Node β) : β := node.event.behavior

/-- Change a node but not its sub-events. -/
def mapEvent {β : Type} (change : Event β → Event β) (node : Node β) : Node β :=
  { node with event := change node.event }

def setDisabled {β : Type} (disabled : Bool) (node : Node β) : Node β :=
  node.mapEvent fun event => { event with disabled }

def setFolded {β : Type} (folded : Bool) (node : Node β) : Node β :=
  node.mapEvent fun event => { event with folded }

def setBehavior {β : Type} (behavior : β) (node : Node β) : Node β :=
  node.mapEvent fun event => { event with behavior }

end Node

namespace Event

/-- The node this one remembers, while that one exists. -/
def remembered? {β : Type} (population : Population) (event : Event β) : Option NodeId :=
  population.resolve event.remembered

/-- The id of the event the user edits: the remembered node while it exists,
else this one. -/
def sourceId {β : Type} (population : Population) (event : Event β) : NodeId :=
  (event.remembered? population).getD event.id

end Event

/-! ## Walks -/

mutual
/-- The nodes of a tree in pre-order, each with its nesting depth. -/
def Node.walk {β : Type} (depth : Nat) : Node β → List (Node β × Nat)
  | ⟨event, subEvents⟩ => (⟨event, subEvents⟩, depth) :: Forest.walkFrom (depth + 1) subEvents

def Forest.walkFrom {β : Type} (depth : Nat) : List (Node β) → List (Node β × Nat)
  | [] => []
  | head :: tail => head.walk depth ++ Forest.walkFrom depth tail
end

/-- Every node of a forest in pre-order, with its nesting depth. -/
def Forest.walk {β : Type} (forest : Forest β) : List (Node β × Nat) :=
  Forest.walkFrom 0 forest

mutual
/-- The number of nodes of a tree. -/
def Node.count {β : Type} : Node β → Nat
  | ⟨_, subEvents⟩ => Forest.count subEvents + 1

/-- The number of nodes of a forest, sub-events included. -/
def Forest.count {β : Type} : List (Node β) → Nat
  | [] => 0
  | head :: tail => head.count + Forest.count tail
end

mutual
def Node.ids {β : Type} : Node β → List NodeId
  | ⟨event, subEvents⟩ => event.id :: Forest.ids subEvents

/-- The ids of all nodes in pre-order. -/
def Forest.ids {β : Type} : List (Node β) → List NodeId
  | [] => []
  | head :: tail => head.ids ++ Forest.ids tail
end

/-! ## Places

A place in a tree is the list of positions that leads to it from the top; the
empty list is the top itself. -/

abbrev Place := List Nat

def Node.atPlace? {β : Type} : Place → Node β → Option (Node β)
  | [], node => some node
  | position :: rest, node =>
      match node.subEvents[position]? with
      | some child => child.atPlace? rest
      | none => none

/-- Change the node at a place; nothing changes when there is none. -/
def Node.modifyAt {β : Type} (change : Node β → Node β) : Place → Node β → Node β
  | [], node => change node
  | position :: rest, node =>
      { node with subEvents := node.subEvents.modify position (Node.modifyAt change rest) }

def Forest.atPlace? {β : Type} (place : Place) (forest : Forest β) : Option (Node β) :=
  match place with
  | [] => none
  | position :: rest =>
      match forest[position]? with
      | some node => node.atPlace? rest
      | none => none

def Forest.modifyAt {β : Type} (change : Node β → Node β) (place : Place)
    (forest : Forest β) : Forest β :=
  match place with
  | [] => forest
  | position :: rest => forest.modify position (Node.modifyAt change rest)

theorem Node.atPlace?_cons {β : Type} (position : Nat) (rest : Place) (node : Node β) :
    node.atPlace? (position :: rest) = node.subEvents[position]?.bind (Node.atPlace? rest) := by
  rw [atPlace?]
  cases node.subEvents[position]? <;> rfl

theorem Forest.atPlace?_cons {β : Type} (position : Nat) (rest : Place) (forest : Forest β) :
    Forest.atPlace? (position :: rest) forest = forest[position]?.bind (Node.atPlace? rest) := by
  rw [atPlace?]
  cases forest[position]? <;> rfl

theorem Node.exists_below_of_atPlace? {β : Type} {position : Nat} {rest : Place}
    {node found : Node β} (isFound : node.atPlace? (position :: rest) = some found) :
    ∃ child, node.subEvents[position]? = some child ∧ child.atPlace? rest = some found := by
  rw [atPlace?_cons] at isFound
  exact Option.bind_eq_some_iff.mp isFound

/-- What stands at a place stands in the tree of one of the siblings. -/
theorem Forest.exists_of_atPlace? {β : Type} {place : Place} {forest : Forest β} {found : Node β}
    (isFound : Forest.atPlace? place forest = some found) :
    ∃ position rest node, place = position :: rest ∧ forest[position]? = some node ∧
      node.atPlace? rest = some found := by
  cases place with
  | nil => cases isFound
  | cons position rest =>
      rw [atPlace?_cons] at isFound
      rcases Option.bind_eq_some_iff.mp isFound with ⟨node, isNode, below⟩
      exact ⟨position, rest, node, rfl, isNode, below⟩

/-! ## Lists of siblings -/

/-- Insert at a position; positions behind the end mean the end. -/
def Forest.insert {β : Type} (position : Nat) (node : Node β) (forest : Forest β) :
    Forest β :=
  forest.insertIdx (min position forest.length) node

/-- Take the node at a position out. -/
def Forest.remove? {β : Type} (position : Nat) (forest : Forest β) :
    Option (Node β × Forest β) :=
  match forest[position]? with
  | some node => some (node, forest.eraseIdx position)
  | none => none

/-! ## Measures -/

theorem Node.count_eq {β : Type} (node : Node β) :
    node.count = Forest.count node.subEvents + 1 := by
  cases node
  rw [count]

@[simp] theorem Forest.count_nil {β : Type} : Forest.count ([] : Forest β) = 0 := rfl

@[simp] theorem Forest.count_append {β : Type} (left right : Forest β) :
    Forest.count (left ++ right) = Forest.count left + Forest.count right := by
  induction left with
  | nil => simp
  | cons head tail induction => simp [Forest.count, induction, Nat.add_assoc]

@[simp] theorem Forest.count_reverse {β : Type} (forest : Forest β) :
    Forest.count forest.reverse = Forest.count forest := by
  induction forest with
  | nil => rfl
  | cons head tail induction => simp [Forest.count, induction, Nat.add_comm]

@[simp] theorem Forest.ids_append {β : Type} (left right : Forest β) :
    Forest.ids (left ++ right) = Forest.ids left ++ Forest.ids right := by
  induction left with
  | nil => simp [Forest.ids]
  | cons head tail induction => simp [Forest.ids, induction]

end EventSheet
