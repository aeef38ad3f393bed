import EventSheet.Proofs.Traversal.LinkBudget
namespace EventSheet

/-! # What a pass leaves to do

A pass goes on with whatever a link was replaced by, so it leaves no link behind that it could
have looked at. What is left is a forest that further passes walk without changing it. -/

/-! ## Active events -/

mutual
def Node.active {β : Type} : Node β → List (Event β)
  | ⟨event, subEvents⟩ => if event.disabled then [] else event :: Forest.active subEvents

/-- The enabled events outside disabled sub-trees, in pre-order. -/
def Forest.active {β : Type} : List (Node β) → List (Event β)
  | [] => []
  | head :: tail => head.active ++ Forest.active tail
end

section

variable {β : Type}

theorem Node.active_of_disabled {node : Node β} (disabled : node.event.disabled = true) :
    node.active = [] := by
  rcases node with ⟨event, subEvents⟩
  rw [active, if_pos disabled]

theorem Node.active_of_enabled {node : Node β} (enabled : node.event.disabled = false) :
    node.active = node.event :: Forest.active node.subEvents := by
  rcases node with ⟨event, subEvents⟩
  rw [active, if_neg (by rw [enabled]; exact Bool.false_ne_true)]

@[simp] theorem Forest.active_nil : Forest.active ([] : Forest β) = [] := rfl

theorem Forest.active_cons (head : Node β) (tail : Forest β) :
    Forest.active (head :: tail) = head.active ++ Forest.active tail := rfl

@[simp] theorem Node.passed_self (node : Node β) :
    ({ node.setBehavior node.event.behavior with subEvents := node.subEvents } : Node β) = node := by
  cases node
  rfl

/-- A node takes its own place. -/
theorem Forest.splice_self {forest : Forest β} {cursor : Nat} {node : Node β}
    (found : forest[cursor]? = some node) : forest.splice cursor [node] = forest := by
  rw [splice, ← take_succ_of_found found, List.take_append_drop]

end

open Kind (Builtin)
open Preprocess

/-- No active event is a link. -/
def Forest.LinkFree (forest : Forest Builtin) : Prop :=
  ∀ event ∈ Forest.active forest, event.behavior.target? = none

/-! ## Runs to the end -/

/-- Preprocessing the forest makes these calls and ends with this forest and state; whatever the
fuel, it ends in no other way. -/
structure Forest.Passes (forest : Forest Builtin) (state : PassState Builtin)
    (calls : List (Preprocess.Call Builtin (PassState Builtin))) (result : Forest Builtin)
    (after : PassState Builtin) : Prop where
  recorded : ∃ fuel, forest.preprocessRecorded fuel state =
    some ((result, calls.length), (after, calls))
  ends : ∃ fuel, forest.preprocess fuel state = some ((result, calls.length), after)
  only : ∀ fuel outcome, forest.preprocess fuel state = some outcome →
    outcome = ((result, calls.length), after)

namespace Preprocess

variable {forest result : Forest Builtin} {cursor : Nat} {state after : PassState Builtin}
  {calls : List (Call Builtin (PassState Builtin))}

theorem Traverses.passes (traverses : Traverses Pass.visitor forest 0 state calls result after) :
    forest.Passes state calls result after := by
  rcases run_recording_iff.mpr ⟨traverses, rfl⟩ with ⟨fuel, ends⟩
  refine ⟨⟨fuel, ends⟩, ⟨fuel, ?_⟩, fun other outcome runs => ?_⟩
  · rw [Forest.preprocess_eq_recorded, Forest.preprocessRecorded, ends, Option.map_some]
  · rw [Forest.preprocess_eq_recorded, Option.map_eq_some_iff] at runs
    rcases runs with ⟨⟨⟨found, count⟩, last, made⟩, recorded, rfl⟩
    rcases run_recording_iff.mp ⟨other, recorded⟩ with ⟨walked, rfl⟩
    rcases traverses.unique walked with ⟨rfl, rfl, rfl⟩
    rfl

/-! ## No link is left -/

/-- A node that stays is no link: links are the nodes that go. -/
theorem LinkVisit.noLink {event : Event Builtin} {splice : Splice Builtin}
    {visited : PassState Builtin} (visit : LinkVisit event state splice visited)
    {inserted : Forest Builtin} (stays : splice.inserted? = some inserted) :
    event.behavior.target? = none ∧ visited = (state.asking event).settled := by
  cases visit with
  | plain noLink => exact ⟨noLink, rfl⟩
  | unknown _ _ => cases stays
  | expanded _ _ _ => cases stays
  | exhausted _ _ _ => cases stays

/-- The events of the result from the cursor on are those that stayed when they were asked. -/
theorem Traverses.linkFree
    (traverses : Traverses Pass.visitor forest cursor state calls result after) :
    Forest.LinkFree (result.drop cursor) := by
  induction traverses with
  | finished passed =>
      rw [List.drop_of_length_le passed]
      exact List.forall_mem_nil _
  | skip found disabled onward induction =>
      have taken := onward.enabledIds_eq.1
      rw [Forest.take_succ_of_found found] at taken
      rcases Forest.found_of_take (Forest.length_take_of_found found) taken with ⟨atCursor, _⟩
      rw [Forest.drop_of_found atCursor, Forest.LinkFree, Forest.active_cons,
        Node.active_of_disabled disabled, List.nil_append]
      exact induction
  | stay found enabled visit stays inside onward insideInduction onwardInduction =>
      rcases linkVisit_of_visit visit with ⟨rfl, ends⟩
      have taken := onward.enabledIds_eq.1
      rw [Forest.take_splice_cons found] at taken
      rcases Forest.found_of_take (Forest.length_take_of_found found) taken with ⟨atCursor, _⟩
      rw [Forest.drop_of_found atCursor, Forest.LinkFree, Forest.active_cons,
        Node.active_of_enabled (by exact enabled), List.cons_append, List.forall_mem_cons,
        List.forall_mem_append]
      exact ⟨(ends.noLink stays).1, insideInduction, onwardInduction⟩
  | go found enabled visit goes onward induction => exact induction

/-! ## Passes over forests without links -/

/-- A pass that meets no links changes nothing and asks the active events. -/
theorem Traverses.unchanged
    (traverses : Traverses Pass.visitor forest cursor state calls result after)
    (linkFree : Forest.LinkFree (forest.drop cursor)) :
    result = forest ∧ calls.map Call.event = Forest.active (forest.drop cursor) ∧
      after.settled = state.settled := by
  induction traverses with
  | finished passed =>
      rw [List.drop_of_length_le passed]
      exact ⟨rfl, rfl, rfl⟩
  | skip found disabled onward induction =>
      rw [Forest.drop_of_found found, Forest.LinkFree, Forest.active_cons,
        Node.active_of_disabled disabled, List.nil_append] at linkFree
      rw [Forest.drop_of_found found, Forest.active_cons, Node.active_of_disabled disabled,
        List.nil_append]
      exact induction linkFree
  | @stay forest subEvents result inserted cursor node behavior splice state visited below after
      inner outer found enabled visit stays inside onward insideInduction onwardInduction =>
      rcases linkVisit_of_visit visit with ⟨rfl, ends⟩
      rcases ends.eq_keep stays with ⟨rfl, -⟩
      rw [Forest.drop_of_found found, Forest.LinkFree, Forest.active_cons,
        Node.active_of_enabled enabled, List.cons_append, List.forall_mem_cons,
        List.forall_mem_append] at linkFree
      rcases linkFree with ⟨_, belowFree, behindFree⟩
      rcases insideInduction belowFree with ⟨rfl, innerEvents, innerState⟩
      rw [Node.passed_self, Forest.splice_self found] at onwardInduction
      rcases onwardInduction behindFree with ⟨rfl, outerEvents, outerState⟩
      refine ⟨rfl, ?_, ?_⟩
      · rw [List.map_cons, List.map_append, innerEvents, outerEvents, List.drop_zero,
          Forest.drop_of_found found, Forest.active_cons, Node.active_of_enabled enabled,
          List.cons_append]
      · rw [outerState, innerState, (ends.noLink stays).2]
        rfl
  | go found enabled visit goes onward induction =>
      rcases linkVisit_of_visit visit with ⟨rfl, ends⟩
      have noLink := linkFree _ (by
        rw [Forest.drop_of_found found, Forest.active_cons, Node.active_of_enabled enabled]
        exact List.mem_cons_self)
      cases ends with
      | plain _ => cases goes
      | unknown link _ => exact absurd (noLink.symm.trans link) nofun
      | expanded link _ _ => exact absurd (noLink.symm.trans link) nofun
      | exhausted link _ _ => exact absurd (noLink.symm.trans link) nofun

end Preprocess

/-- Every forest has its pass, with any sheets and any budget. -/
theorem Forest.exists_passes (forest : Forest Builtin) (state : PassState Builtin) :
    ∃ calls result after, Traverses Pass.visitor forest 0 state calls result after ∧
      forest.Passes state calls result after := by
  rcases exists_traverses _ _ forest 0 state rfl rfl with ⟨calls, result, after, traverses⟩
  exact ⟨calls, result, after, traverses, traverses.passes⟩

/-- One pass leaves nothing to preprocess. Whatever the sheets, the budget and what of it is
spent, the pass over a forest ends with no link among the active events. A pass over what it
leaves, with any context and population, asks the active events one after the other, changes no
node, and reports and counts nothing. -/
theorem Forest.preprocess_leaves_linkFree (forest : Forest Builtin)
    (state : PassState Builtin) :
    ∃ calls result after, forest.Passes state calls result after ∧ Forest.LinkFree result ∧
      ∀ later : PassState Builtin, ∃ laterCalls last,
        Forest.Passes result later laterCalls result last ∧
        laterCalls.map Call.event = Forest.active result ∧
        last.context.diagnostics = later.context.diagnostics ∧
        last.settled = later.settled := by
  rcases forest.exists_passes state with ⟨calls, result, after, traverses, passes⟩
  have linkFree : Forest.LinkFree result := traverses.linkFree
  refine ⟨calls, result, after, passes, linkFree, fun later => ?_⟩
  rcases Forest.exists_passes result later with ⟨laterCalls, again, last, walks, ends⟩
  rcases walks.unchanged linkFree with ⟨rfl, events, same⟩
  have diagnostics := congrArg (fun state => state.context.diagnostics) same
  exact ⟨laterCalls, last, ends, events, diagnostics, same⟩

end EventSheet
