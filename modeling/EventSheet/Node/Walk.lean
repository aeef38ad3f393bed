import EventSheet.Node
namespace EventSheet

/-! Walks with a stack. What is still to be visited is kept in a list, so that it takes no
deep recursion to walk a deep tree. Visiting takes the first of siblings up first;
counting and searching, for which the order does not matter, take the last one. -/

variable {β : Type}

namespace Forest

/-! ## Visiting -/

/-- Siblings that are nested at a depth. -/
def atDepth (depth : Nat) (forest : Forest β) : List (Node β × Nat) := forest.map (·, depth)

theorem map_fst_atDepth (depth : Nat) (forest : Forest β) :
    (atDepth depth forest).map Prod.fst = forest := by
  rw [atDepth, List.map_map]
  exact List.map_id forest

/-- Visit the nodes that are pending, the first one next, with all that is below them.
Each has its nesting depth with it. -/
def visitPending : List (Node β × Nat) → List (Node β × Nat)
  | [] => []
  | (node, depth) :: pending =>
      (node, depth) :: visitPending (atDepth (depth + 1) node.subEvents ++ pending)
termination_by pending => Forest.count (pending.map Prod.fst)
decreasing_by
  rw [List.map_append, map_fst_atDepth, count_append, List.map_cons, Forest.count, Node.count_eq]
  exact Nat.add_lt_add_right (Nat.lt_succ_self _) _

/-- The visits of a walk over a forest: every node, with its nesting depth. -/
def visits (forest : Forest β) : List (Node β × Nat) := visitPending (atDepth 0 forest)

/-! ## Counting -/

/-- What is left to do for pending forests: their nodes, and taking them up. -/
def pendingWork : List (Forest β) → Nat
  | [] => 0
  | forest :: pending => Forest.count forest + 1 + pendingWork pending

theorem pendingWork_append (front behind : List (Forest β)) :
    pendingWork (front ++ behind) = pendingWork front + pendingWork behind := by
  induction front with
  | nil => rw [List.nil_append, pendingWork, Nat.zero_add]
  | cons head tail induction =>
      rw [List.cons_append, pendingWork, induction, pendingWork, ← Nat.add_assoc]

theorem pendingWork_reverse (pending : List (Forest β)) :
    pendingWork pending.reverse = pendingWork pending := by
  induction pending with
  | nil => rfl
  | cons head tail induction =>
      rw [List.reverse_cons, pendingWork_append, induction, pendingWork, pendingWork, pendingWork]
      omega

/-- The forests right below a forest. -/
def below (forest : Forest β) : List (Forest β) := forest.map Node.subEvents

theorem pendingWork_below (forest : Forest β) : pendingWork (below forest) = count forest := by
  induction forest with
  | nil => rfl
  | cons head tail induction =>
      rw [below, List.map_cons, pendingWork, ← below, induction, count, Node.count_eq]

/-- Count the nodes of pending forests, with all that is below them, on top of a total.
What is below the last sibling of a forest comes next. -/
def countPending : List (Forest β) → Nat → Nat
  | [], total => total
  | forest :: pending, total =>
      countPending ((below forest).reverse ++ pending) (total + forest.length)
termination_by pending => pendingWork pending
decreasing_by
  rw [pendingWork_append, pendingWork_reverse, pendingWork_below, pendingWork]
  omega

/-- The number of nodes of a forest. -/
def countNodes (forest : Forest β) : Nat := countPending [forest] 0

end Forest

/-! ## Searching

A search ends at a node and tells where the node stands, so that it can be changed
there. -/

/-- A node of a forest and the positions that lead to it, the innermost first. -/
structure Spot (β : Type) where
  positions : List Nat
  node : Node β

namespace Spot

def place (spot : Spot β) : Place := spot.positions.reverse

/-- Siblings below the node that positions lead to. -/
def siblings (positions : List Nat) (forest : Forest β) : List (Spot β) :=
  forest.zipIdx.map fun child => ⟨child.2 :: positions, child.1⟩

theorem map_node_siblings (positions : List Nat) (forest : Forest β) :
    (siblings positions forest).map node = forest := by
  rw [siblings, List.map_map]
  exact List.zipIdx_map_fst 0 forest

end Spot

namespace Forest

/-- Search the nodes that are pending, with all that is below them, for an id. The last
one of siblings comes next. -/
def searchPending? (id : NodeId) : List (Spot β) → Option (Spot β)
  | [] => none
  | spot :: pending =>
      if spot.node.id = id then some spot
      else searchPending? id
        ((Spot.siblings spot.positions spot.node.subEvents).reverse ++ pending)
termination_by pending => Forest.count (pending.map Spot.node)
decreasing_by
  rw [List.map_append, List.map_reverse, Spot.map_node_siblings, count_append, count_reverse,
    List.map_cons, Forest.count, Node.count_eq]
  exact Nat.add_lt_add_right (Nat.lt_succ_self _) _

/-- The spot of an id, anywhere in the forest. -/
def search? (id : NodeId) (forest : Forest β) : Option (Spot β) :=
  searchPending? id (Spot.siblings [] forest).reverse

/-- The node of an id. -/
def find? (id : NodeId) (forest : Forest β) : Option (Node β) :=
  (search? id forest).map Spot.node

/-- The place of the node of an id, to change it there. -/
def placeOf? (id : NodeId) (forest : Forest β) : Option Place :=
  (search? id forest).map Spot.place

/-- Change the node of an id; nothing changes when there is none. -/
def editNode (id : NodeId) (change : Node β → Node β) (forest : Forest β) : Forest β :=
  match placeOf? id forest with
  | some place => Forest.modifyAt change place forest
  | none => forest

end Forest

/-! ## Walks by recursion -/

mutual
theorem Node.visitPending_cons : ∀ (node : Node β) (depth : Nat) (pending : List (Node β × Nat)),
    Forest.visitPending ((node, depth) :: pending) =
      node.walk depth ++ Forest.visitPending pending
  | ⟨event, subEvents⟩, depth, pending => by
      rw [Forest.visitPending, Forest.visitPending_siblings subEvents, Node.walk, List.cons_append]

/-- Siblings that were pushed come off the stack in their order. -/
theorem Forest.visitPending_siblings : ∀ (forest : List (Node β)) (depth : Nat)
    (pending : List (Node β × Nat)),
    Forest.visitPending (Forest.atDepth depth forest ++ pending) =
      Forest.walkFrom depth forest ++ Forest.visitPending pending
  | [], _, _ => rfl
  | head :: tail, depth, pending => by
      rw [Forest.atDepth, List.map_cons, List.cons_append, head.visitPending_cons,
        ← Forest.atDepth, Forest.visitPending_siblings tail, Forest.walkFrom, List.append_assoc]
end

/-- The visits are those of the recursive walk. -/
theorem Forest.visits_eq_walk (forest : Forest β) : visits forest = walk forest := by
  have visited := visitPending_siblings forest 0 []
  rw [visitPending, List.append_nil, List.append_nil] at visited
  exact visited

/-- Every pending forest adds its nodes, and the forests below one are as many as its siblings. -/
theorem Forest.countPending_add_length (pending : List (Forest β)) (total : Nat) :
    countPending pending total + pending.length = total + pendingWork pending := by
  induction pending, total using Forest.countPending.induct with
  | case1 total => rw [countPending, pendingWork, List.length_nil]
  | case2 forest pending total induction =>
      rw [pendingWork_append, pendingWork_reverse, pendingWork_below, List.length_append,
        List.length_reverse, below, List.length_map, ← below] at induction
      rw [countPending, pendingWork, List.length_cons]
      omega

/-- Counting with a stack is counting by recursion. -/
theorem Forest.countNodes_eq_count (forest : Forest β) : countNodes forest = count forest := by
  have counted := countPending_add_length [forest] 0
  rw [List.length_singleton, pendingWork, pendingWork, Nat.add_zero, Nat.zero_add] at counted
  exact Nat.add_right_cancel counted

end EventSheet
