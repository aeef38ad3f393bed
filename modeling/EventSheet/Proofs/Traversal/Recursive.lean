import EventSheet.Preprocess.Traversal
namespace EventSheet

/-! The recursive reading of a pass. It knows nothing of frames: a forest is
walked by a cursor, and the sub-events of a node that stays are walked in a pass
of their own, to the end, before the cursor moves on. -/

variable {β σ : Type}

theorem Node.with_no_subEvents {node : Node β} (empty : node.subEvents = []) :
    { node with subEvents := [] } = node := by
  rcases node with ⟨event, subEvents⟩
  rw [← empty]

@[simp] theorem Node.event_setBehavior (behavior : β) (node : Node β) :
    (node.setBehavior behavior).event = { node.event with behavior } := rfl

@[simp] theorem Node.subEvents_setBehavior (behavior : β) (node : Node β) :
    (node.setBehavior behavior).subEvents = node.subEvents := rfl

/-- Put nodes in the place of the one at the cursor. -/
def Forest.splice (forest : Forest β) (cursor : Nat) (nodes : Forest β) : Forest β :=
  forest.take cursor ++ nodes ++ forest.drop (cursor + 1)

/-- The siblings of the node at the cursor. -/
def Siblings.around (forest : Forest β) (cursor : Nat) : Siblings β :=
  ⟨(forest.take cursor).reverse, forest.drop (cursor + 1)⟩

namespace Splice

/-- The nodes put behind a node that stays; nothing when it does not. -/
def inserted? : Splice β → Option (Forest β)
  | .keep => some []
  | .insertAfter nodes => some nodes
  | .remove | .replace _ => none

/-- The nodes put in the place of a node that goes; nothing when it stays. -/
def replacement? : Splice β → Option (Forest β)
  | .remove => some []
  | .replace nodes => some nodes
  | .keep | .insertAfter _ => none

theorem stays_or_goes (splice : Splice β) :
    (∃ inserted, splice.inserted? = some inserted) ∨
      ∃ nodes, splice.replacement? = some nodes := by
  cases splice with
  | keep => exact .inl ⟨_, rfl⟩
  | insertAfter _ => exact .inl ⟨_, rfl⟩
  | remove => exact .inr ⟨_, rfl⟩
  | replace _ => exact .inr ⟨_, rfl⟩

theorem not_inserted_of_replacement {splice : Splice β} {nodes : Forest β}
    (goes : splice.replacement? = some nodes) : splice.inserted? = none := by
  cases splice with
  | keep => cases goes
  | insertAfter _ => cases goes
  | remove => rfl
  | replace _ => rfl

end Splice

namespace Preprocess

/-- One call of a visitor. -/
structure Call (β σ : Type) where
  /-- The event the visitor was called for. -/
  event : Event β
  /-- Its position in the forest being walked. -/
  position : Nat
  siblings : Siblings β
  /-- The state the call found. -/
  state : σ
  /-- What the visitor wants done with the node. -/
  answer : Splice β

/-- The node was left in its place. -/
def Call.stays (call : Call β σ) : Bool := call.answer.inserted?.isSome

/-- A pass over a forest from a cursor on: the calls it makes, the forest it ends
with and the state it leaves. -/
inductive Traverses (visitor : Visitor β σ) :
    Forest β → Nat → σ → List (Call β σ) → Forest β → σ → Prop
  | finished {forest : Forest β} {cursor : Nat} {state : σ}
      (passed : forest.length ≤ cursor) :
      Traverses visitor forest cursor state [] forest state
  /-- A disabled node is skipped with its sub-events. -/
  | skip {forest result : Forest β} {cursor : Nat} {node : Node β} {state after : σ}
      {calls : List (Call β σ)}
      (found : forest[cursor]? = some node) (disabled : node.event.disabled = true)
      (onward : Traverses visitor forest (cursor + 1) state calls result after) :
      Traverses visitor forest cursor state calls result after
  /-- A node that stays has its sub-events walked before anything behind it. -/
  | stay {forest subEvents result inserted : Forest β} {cursor : Nat} {node : Node β}
      {behavior : β} {splice : Splice β} {state visited below after : σ}
      {inner outer : List (Call β σ)}
      (found : forest[cursor]? = some node) (enabled : node.event.disabled = false)
      (visit : visitor.visit node.event (.around forest cursor) state =
        ((behavior, splice), visited))
      (stays : splice.inserted? = some inserted)
      (inside : Traverses visitor node.subEvents 0 visited inner subEvents below)
      (onward : Traverses visitor
        (forest.splice cursor ({ node.setBehavior behavior with subEvents } :: inserted))
        (cursor + 1) below outer result after) :
      Traverses visitor forest cursor state
        (⟨node.event, cursor, .around forest cursor, state, splice⟩ :: (inner ++ outer))
        result after
  /-- What takes the place of a node that goes is looked at next. -/
  | go {forest result nodes : Forest β} {cursor : Nat} {node : Node β} {behavior : β}
      {splice : Splice β} {state visited after : σ} {calls : List (Call β σ)}
      (found : forest[cursor]? = some node) (enabled : node.event.disabled = false)
      (visit : visitor.visit node.event (.around forest cursor) state =
        ((behavior, splice), visited))
      (goes : splice.replacement? = some nodes)
      (onward : Traverses visitor (forest.splice cursor nodes) cursor
        (visitor.discard (node.setBehavior behavior) visited).2 calls result after) :
      Traverses visitor forest cursor state
        (⟨node.event, cursor, .around forest cursor, state, splice⟩ :: calls) result after

end Preprocess

/-! ## Cursors and splices -/

namespace Forest

theorem length_take_of_found {forest : Forest β} {cursor : Nat} {node : Node β}
    (found : forest[cursor]? = some node) : (forest.take cursor).length = cursor := by
  rcases List.getElem?_eq_some_iff.mp found with ⟨inside, _⟩
  rw [List.length_take]
  omega

theorem drop_of_found {forest : Forest β} {cursor : Nat} {node : Node β}
    (found : forest[cursor]? = some node) :
    forest.drop cursor = node :: forest.drop (cursor + 1) := by
  rcases List.getElem?_eq_some_iff.mp found with ⟨inside, equal⟩
  rw [List.drop_eq_getElem_cons inside, equal]

theorem take_succ_of_found {forest : Forest β} {cursor : Nat} {node : Node β}
    (found : forest[cursor]? = some node) :
    forest.take (cursor + 1) = forest.take cursor ++ [node] := by
  rw [List.take_add_one, found, Option.toList_some]

section

variable {forest : Forest β} {cursor : Nat} {node : Node β}
  (found : forest[cursor]? = some node) (nodes : Forest β)

include found

theorem take_splice : (forest.splice cursor nodes).take cursor = forest.take cursor := by
  rw [splice, List.append_assoc, List.take_append_of_le_length, List.take_take, Nat.min_self]
  exact Nat.le_of_eq (length_take_of_found found).symm

theorem drop_splice :
    (forest.splice cursor nodes).drop cursor = nodes ++ forest.drop (cursor + 1) := by
  rw [splice, List.append_assoc, List.drop_append_of_le_length, List.drop_take, Nat.sub_self]
  · rfl
  · exact Nat.le_of_eq (length_take_of_found found).symm

theorem getElem?_splice_cons (head : Node β) :
    (forest.splice cursor (head :: nodes))[cursor]? = some head := by
  rw [← List.head?_drop, drop_splice found, List.cons_append, List.head?_cons]

theorem take_splice_cons (head : Node β) :
    (forest.splice cursor (head :: nodes)).take (cursor + 1) =
      forest.take cursor ++ [head] := by
  rw [take_succ_of_found (getElem?_splice_cons found nodes head), take_splice found]

theorem drop_splice_cons (head : Node β) :
    (forest.splice cursor (head :: nodes)).drop (cursor + 1) =
      nodes ++ forest.drop (cursor + 1) := by
  have whole := drop_splice found (head :: nodes)
  rw [drop_of_found (getElem?_splice_cons found nodes head)] at whole
  exact (List.cons.inj whole).2

end

end Forest

theorem Siblings.position_around {forest : Forest β} {cursor : Nat} {node : Node β}
    (found : forest[cursor]? = some node) :
    (Siblings.around forest cursor).position = cursor := by
  rw [around, position, List.length_reverse, Forest.length_take_of_found found]

/-- A sibling is found at its position of the forest; the node itself is not among
its siblings. -/
theorem Siblings.get?_around (forest : Forest β) (cursor position : Nat) :
    (Siblings.around forest cursor).get? position =
      if position = cursor then none else forest[position]? := by
  simp only [get?, around, Siblings.position, before, List.length_reverse, List.reverse_reverse,
    List.length_take, List.getElem?_drop, List.getElem?_take]
  by_cases inside : cursor < forest.length
  · rw [Nat.min_eq_left (Nat.le_of_lt inside)]
    rcases Nat.lt_trichotomy position cursor with smaller | equal | larger
    · rw [if_pos smaller, if_pos smaller, if_neg (Nat.ne_of_lt smaller)]
    · rw [if_neg (by omega), if_pos equal, if_pos equal]
    · rw [if_neg (by omega), if_neg (by omega), if_neg (by omega)]
      congr 1
      omega
  · rw [Nat.min_eq_right (Nat.le_of_not_lt inside)]
    have beyond : ∀ index, forest.length ≤ index → forest[index]? = none :=
      fun _ outside => List.getElem?_eq_none outside
    split <;> split <;> simp_all <;> omega

/-! ## Enabled nodes -/

mutual
def Node.enabledIds : Node β → List NodeId
  | ⟨event, subEvents⟩ =>
      if event.disabled then [] else event.id :: Forest.enabledIds subEvents

/-- The ids of the enabled nodes outside disabled sub-trees, in pre-order. -/
def Forest.enabledIds : List (Node β) → List NodeId
  | [] => []
  | head :: tail => head.enabledIds ++ Forest.enabledIds tail
end

theorem Node.enabledIds_eq (node : Node β) :
    node.enabledIds =
      if node.event.disabled then [] else node.event.id :: Forest.enabledIds node.subEvents := by
  cases node
  rw [enabledIds]

/-- A forest whose first nodes are known up to the cursor and at it. -/
theorem Forest.found_of_take {result before : Forest β} {cursor : Nat} {node : Node β}
    (length : before.length = cursor) (taken : result.take (cursor + 1) = before ++ [node]) :
    result[cursor]? = some node ∧ result.take cursor = before := by
  subst length
  constructor
  · have found : (result.take (before.length + 1))[before.length]? = some node := by
      rw [taken, List.getElem?_concat_length]
    rwa [List.getElem?_take, if_pos (Nat.lt_succ_self _)] at found
  · have shorter := congrArg (List.take before.length) taken
    rwa [List.take_take, Nat.min_eq_left (Nat.le_succ _), List.take_left] at shorter

namespace Preprocess

namespace Traverses

variable {visitor : Visitor β σ} {forest result : Forest β} {cursor : Nat} {state after : σ}
  {calls : List (Call β σ)}

/-- There is nothing to do in an empty forest. -/
theorem of_nil (traverses : Traverses visitor [] cursor state calls result after) :
    calls = [] ∧ result = [] ∧ after = state := by
  cases traverses with
  | finished _ => exact ⟨rfl, rfl, rfl⟩
  | skip found _ _ => cases found
  | stay found _ _ _ _ _ => cases found
  | go found _ _ _ _ => cases found

/-- What holds of single visits and can be put together holds of a whole pass. -/
theorem accumulate (Relation : σ → List (Call β σ) → σ → Prop)
    (empty : ∀ state, Relation state [] state)
    (append : ∀ {start middle final first second}, Relation start first middle →
      Relation middle second final → Relation start (first ++ second) final)
    (stay : ∀ {event position siblings behavior splice state visited},
      visitor.visit event siblings state = ((behavior, splice), visited) →
      Relation state [⟨event, position, siblings, state, splice⟩] visited)
    (go : ∀ {node : Node β} {position siblings behavior splice state visited},
      visitor.visit node.event siblings state = ((behavior, splice), visited) →
      Relation state [⟨node.event, position, siblings, state, splice⟩]
        (visitor.discard (node.setBehavior behavior) visited).2)
    (traverses : Traverses visitor forest cursor state calls result after) :
    Relation state calls after := by
  induction traverses with
  | finished _ => exact empty _
  | skip _ _ _ induction => exact induction
  | stay _ _ visit _ _ _ inner outer => exact append (stay visit) (append inner outer)
  | go _ _ visit _ _ induction => exact append (go visit) induction

/-- The nodes in front of the cursor are never touched again, and those left in their
places were called one after the other, as the final forest has them. -/
theorem enabledIds_eq (traverses : Traverses visitor forest cursor state calls result after) :
    result.take cursor = forest.take cursor ∧
      (calls.filter Call.stays).map (fun call => call.event.id) =
        Forest.enabledIds (result.drop cursor) := by
  induction traverses with
  | finished passed =>
      rw [List.drop_of_length_le passed]
      exact ⟨rfl, rfl⟩
  | skip found disabled onward induction =>
      rcases induction with ⟨taken, ids⟩
      rw [Forest.take_succ_of_found found] at taken
      rcases Forest.found_of_take (Forest.length_take_of_found found) taken with ⟨at_cursor, before⟩
      refine ⟨before, ?_⟩
      rw [ids, Forest.drop_of_found at_cursor, Forest.enabledIds, Node.enabledIds_eq,
        if_pos disabled, List.nil_append]
  | stay found enabled visit stays inside onward insideInduction onwardInduction =>
      rcases insideInduction with ⟨_, innerIds⟩
      rcases onwardInduction with ⟨taken, outerIds⟩
      rw [Forest.take_splice_cons found] at taken
      rcases Forest.found_of_take (Forest.length_take_of_found found) taken with ⟨at_cursor, before⟩
      refine ⟨before, ?_⟩
      rw [List.drop_zero] at innerIds
      rw [Forest.drop_of_found at_cursor, Forest.enabledIds, Node.enabledIds_eq, ← innerIds,
        ← outerIds, if_neg (by simpa using enabled),
        List.filter_cons_of_pos (by rw [Call.stays, stays, Option.isSome_some])]
      simp
  | go found enabled visit goes onward induction =>
      rcases induction with ⟨taken, ids⟩
      rw [Forest.take_splice found] at taken
      rw [List.filter_cons_of_neg (by simp [Call.stays, Splice.not_inserted_of_replacement goes])]
      exact ⟨taken, ids⟩

end Traverses

end Preprocess
end EventSheet
