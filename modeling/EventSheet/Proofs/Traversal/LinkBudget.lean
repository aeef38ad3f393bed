import EventSheet.Proofs.Traversal.Links
import EventSheet.Proofs.Traversal.Refinement
namespace EventSheet

/-! Preprocessing of built-in kinds always ends. A link that is replaced uses up some
budget; everything else makes the part of the forest ahead of the cursor smaller. -/

open Kind (Builtin)

/-! ## Sizes -/

mutual
theorem Node.count_copy {β : Type} (link : Event β → Option NodeId) :
    ∀ (node : Node β) (population : Population),
      (node.copy link population).1.count = node.count
  | ⟨event, subEvents⟩, population => by
      have inside := Forest.count_copy link subEvents (event.copy link population).2
      simp only [Node.count]
      exact congrArg (· + 1) inside

/-- A copy of a forest has as many nodes. -/
theorem Forest.count_copy {β : Type} (link : Event β → Option NodeId) :
    ∀ (forest : List (Node β)) (population : Population),
      Forest.count (Forest.copy link forest population).1 = Forest.count forest
  | [], _ => rfl
  | head :: tail, population => by
      have first := head.count_copy link population
      have rest := Forest.count_copy link tail (head.copy link population).2
      simp only [Forest.count, ← first, ← rest]
      rfl
end

/-- The number of nodes of the largest event sheet. -/
def largestSheet {β : Type} (externals : Named (Forest β)) : Nat :=
  (externals.map fun entry => Forest.count entry.2).foldr max 0

theorem count_le_largestSheet {β : Type} {externals : Named (Forest β)} {name : String}
    {sheet : Forest β} (known : externals.lookup name = some sheet) :
    Forest.count sheet ≤ largestSheet externals := by
  induction externals with
  | nil => cases known
  | cons head tail induction =>
      rcases head with ⟨other, events⟩
      rw [largestSheet, List.map_cons, List.foldr_cons]
      rw [List.lookup_cons] at known
      cases same : name == other with
      | true =>
          simp only [same, Option.some.injEq] at known
          subst known
          exact Nat.le_max_left _ _
      | false =>
          simp only [same] at known
          exact Nat.le_trans (induction known) (Nat.le_max_right _ _)

namespace Preprocess

namespace Call

/-- Other nodes take the place of the node. -/
def expands {β σ : Type} (call : Call β σ) : Bool :=
  match call.answer with
  | .replace _ => true
  | .keep | .remove | .insertAfter _ => false

def isLink {σ : Type} (call : Call Builtin σ) : Bool :=
  call.event.behavior.target?.isSome

/-- A link to an event sheet there is. -/
def isKnownLink (call : Call Builtin (PassState Builtin)) : Bool :=
  call.event.behavior.target?.any fun target => (call.state.context.external? target).isSome

end Call

/-! ## Counting links -/

/-- What a stretch of a pass does to the counters of its context. -/
structure LinkCounts (before : PreprocessContext Builtin)
    (calls : List (Call Builtin (PassState Builtin))) (after : PreprocessContext Builtin) :
    Prop where
  externals : after.externals = before.externals
  limit : after.maxLinkExpansions = before.maxLinkExpansions
  expansions : after.linkExpansions = before.linkExpansions + calls.countP Call.expands
  reports : calls.countP Call.isLink + before.diagnostics.length =
    calls.countP Call.expands + after.diagnostics.length
  spent : before.linkExpansions ≤ before.maxLinkExpansions →
    after.linkExpansions = min before.maxLinkExpansions
      (before.linkExpansions + calls.countP Call.isKnownLink)

namespace LinkCounts

theorem empty (context : PreprocessContext Builtin) : LinkCounts context [] context where
  externals := rfl
  limit := rfl
  expansions := rfl
  reports := rfl
  spent := fun within => (Nat.min_eq_right within).symm

theorem append {start middle final : PreprocessContext Builtin}
    {first second : List (Call Builtin (PassState Builtin))}
    (earlier : LinkCounts start first middle) (later : LinkCounts middle second final) :
    LinkCounts start (first ++ second) final where
  externals := later.externals.trans earlier.externals
  limit := later.limit.trans earlier.limit
  expansions := by
    rw [List.countP_append, later.expansions, earlier.expansions, Nat.add_assoc]
  reports := by
    have firstReports := earlier.reports
    have secondReports := later.reports
    rw [List.countP_append, List.countP_append]
    omega
  spent := fun within => by
    have firstSpent := earlier.spent within
    have middleWithin : middle.linkExpansions ≤ middle.maxLinkExpansions := by
      rw [earlier.limit, firstSpent]
      exact Nat.min_le_left _ _
    have secondSpent := later.spent middleWithin
    rw [earlier.limit] at secondSpent
    rw [List.countP_append]
    omega

/-- How one visit moves the counters. -/
theorem of_visit {event : Event Builtin} {splice : Splice Builtin}
    {state visited : PassState Builtin} (visit : LinkVisit event state splice visited)
    (position : Nat) (siblings : Siblings Builtin) :
    LinkCounts state.context [⟨event, position, siblings, state, splice⟩] visited.context := by
  cases visit with
  | plain noLink =>
      refine ⟨rfl, rfl, rfl, ?_, fun within => ?_⟩
      · simp [Call.isLink, Call.expands, noLink, PassState.settled, PassState.asking]
      · simpa [Call.isKnownLink, noLink, PassState.settled, PassState.asking] using
          (Nat.min_eq_right within).symm
  | unknown link missing =>
      refine ⟨rfl, rfl, rfl, ?_, fun within => ?_⟩
      · simp [Call.isLink, Call.expands, link, PassState.settled, PassState.report,
          PreprocessContext.report, PassState.asking, Nat.add_comm]
      · simpa [Call.isKnownLink, link, missing, PassState.settled, PassState.report,
          PreprocessContext.report, PassState.asking] using (Nat.min_eq_right within).symm
  | expanded link known within =>
      refine ⟨rfl, rfl, rfl, ?_, fun _ => ?_⟩
      · simp [Call.isLink, Call.expands, link, PassState.settled, PassState.expand,
          PassState.asking]
      · simpa [Call.isKnownLink, link, known, PassState.settled, PassState.expand,
          PassState.asking] using (Nat.min_eq_right within).symm
  | exhausted link known spent =>
      refine ⟨rfl, rfl, rfl, ?_, fun within => ?_⟩
      · simp [Call.isLink, Call.expands, link, PassState.settled, PassState.report,
          PreprocessContext.report, PassState.asking, Nat.add_comm]
      · have full := Nat.le_antisymm within spent
        simp [Call.isKnownLink, link, known, full, PassState.settled, PassState.report,
          PreprocessContext.report, PassState.asking]

theorem of_traverses {forest result : Forest Builtin} {cursor : Nat}
    {state after : PassState Builtin} {calls : List (Call Builtin (PassState Builtin))}
    (traverses : Traverses Pass.visitor forest cursor state calls result after) :
    LinkCounts state.context calls after.context :=
  traverses.accumulate (fun state calls after => LinkCounts state.context calls after.context)
    (fun state => empty state.context) append
    (fun visit => of_visit (linkVisit_of_visit visit).2 _ _)
    (fun visit => of_visit (linkVisit_of_visit visit).2 _ _)

end LinkCounts

/-! ## Counting visits -/

/-- The expansions that are left. -/
def remainingExpansions (state : PassState Builtin) : Nat :=
  state.context.maxLinkExpansions - state.context.linkExpansions

namespace LinkVisit

variable {event : Event Builtin} {state visited : PassState Builtin} {splice : Splice Builtin}

theorem externals_eq (visit : LinkVisit event state splice visited) :
    visited.context.externals = state.context.externals := by
  cases visit <;> rfl

theorem remaining_le (visit : LinkVisit event state splice visited) :
    remainingExpansions visited ≤ remainingExpansions state := by
  cases visit with
  | plain _ => exact Nat.le_refl _
  | unknown _ _ => exact Nat.le_refl _
  | expanded _ _ _ => exact Nat.sub_le_sub_left (Nat.le_succ _) _
  | exhausted _ _ _ => exact Nat.le_refl _

/-- Nothing is put behind a node that stays. -/
theorem eq_keep (visit : LinkVisit event state splice visited)
    {inserted : Forest Builtin} (stays : splice.inserted? = some inserted) :
    inserted = [] ∧ splice = .keep := by
  cases visit with
  | plain _ =>
      cases stays
      exact ⟨rfl, rfl⟩
  | unknown _ _ => cases stays
  | expanded _ _ _ => cases stays
  | exhausted _ _ _ => cases stays

/-- A node that goes leaves nothing behind, or a copy of a sheet and less budget. -/
theorem replacement_cases (visit : LinkVisit event state splice visited)
    {nodes : Forest Builtin} (goes : splice.replacement? = some nodes) :
    (nodes = [] ∧ splice = .remove) ∨
      (Forest.count nodes ≤ largestSheet state.context.externals ∧ splice = .replace nodes ∧
        remainingExpansions visited < remainingExpansions state) := by
  cases visit with
  | plain _ => cases goes
  | unknown _ _ =>
      cases goes
      exact .inl ⟨rfl, rfl⟩
  | expanded _ known within =>
      cases goes
      refine .inr ⟨?_, rfl, Nat.sub_lt_sub_left within (Nat.lt_succ_self _)⟩
      rw [Forest.cloneRemembering_eq_copy, Forest.count_copy]
      exact count_le_largestSheet known
  | exhausted _ _ _ =>
      cases goes
      exact .inl ⟨rfl, rfl⟩

end LinkVisit

theorem count_drop_of_found {forest : Forest Builtin} {cursor : Nat} {node : Node Builtin}
    (found : forest[cursor]? = some node) :
    Forest.count (forest.drop cursor) =
      Forest.count node.subEvents + 1 + Forest.count (forest.drop (cursor + 1)) := by
  rw [Forest.drop_of_found found, Forest.count, Node.count_eq]

/-- Every visit is of a node that was ahead at first, or that an expansion brought. -/
theorem Traverses.length_le {forest result : Forest Builtin} {cursor largest : Nat}
    {state after : PassState Builtin} {calls : List (Call Builtin (PassState Builtin))}
    (traverses : Traverses Pass.visitor forest cursor state calls result after)
    (sheets : largestSheet state.context.externals ≤ largest) :
    calls.length ≤
      Forest.count (forest.drop cursor) + calls.countP Call.expands * largest := by
  induction traverses with
  | finished _ => exact Nat.zero_le _
  | skip found _ _ induction =>
      have bound := induction sheets
      rw [count_drop_of_found found]
      omega
  | stay found _ visit stays inside onward insideInduction onwardInduction =>
      rcases linkVisit_of_visit visit with ⟨_, ends⟩
      rcases ends.eq_keep stays with ⟨rfl, rfl⟩
      have below := LinkCounts.of_traverses inside
      have inner := insideInduction (by rwa [ends.externals_eq])
      have outer := onwardInduction (by rwa [below.externals, ends.externals_eq])
      rw [Forest.drop_splice_cons found, List.nil_append] at outer
      rw [List.drop_zero] at inner
      rw [count_drop_of_found found, List.length_cons, List.length_append,
        List.countP_cons_of_neg (by simp [Call.expands]), List.countP_append, Nat.add_mul]
      omega
  | go found _ visit goes onward induction =>
      rcases linkVisit_of_visit visit with ⟨_, ends⟩
      have rest := induction (by rwa [context_discard, ends.externals_eq])
      rw [Forest.drop_splice found, Forest.count_append] at rest
      rw [count_drop_of_found found, List.length_cons]
      rcases ends.replacement_cases goes with ⟨rfl, rfl⟩ | ⟨small, rfl, _⟩
      · rw [List.countP_cons_of_neg (by simp [Call.expands])]
        rw [Forest.count_nil] at rest
        omega
      · rw [List.countP_cons_of_pos (by simp [Call.expands]), Nat.add_mul]
        omega

/-! ## Ending -/

theorem Traverses.remaining_le {forest result : Forest Builtin} {cursor : Nat}
    {state after : PassState Builtin} {calls : List (Call Builtin (PassState Builtin))}
    (traverses : Traverses Pass.visitor forest cursor state calls result after) :
    remainingExpansions after ≤ remainingExpansions state := by
  have counts := LinkCounts.of_traverses traverses
  rw [remainingExpansions, remainingExpansions, counts.limit, counts.expansions]
  omega

/-- There is a pass over every forest: the expansions left and the nodes ahead of the
cursor get fewer, in this order. -/
theorem exists_traverses (budget size : Nat) :
    ∀ (forest : Forest Builtin) (cursor : Nat) (state : PassState Builtin),
      remainingExpansions state = budget → Forest.count (forest.drop cursor) = size →
      ∃ calls result after, Traverses Pass.visitor forest cursor state calls result after := by
  induction budget using Nat.strongRecOn generalizing size with
  | ind budget fewer =>
    induction size using Nat.strongRecOn with
    | ind size smaller =>
      intro forest cursor state left ahead
      have continues : ∀ (next : Forest Builtin) (position : Nat) (later : PassState Builtin),
          remainingExpansions later ≤ budget →
          (remainingExpansions later < budget ∨ Forest.count (next.drop position) < size) →
          ∃ calls result after,
            Traverses Pass.visitor next position later calls result after := by
        intro next position later bound decreases
        rcases Nat.lt_or_eq_of_le bound with less | same
        · exact fewer _ less _ next position later rfl rfl
        · refine smaller _ ?_ next position later same rfl
          omega
      cases found : forest[cursor]? with
      | none => exact ⟨[], forest, state, .finished (List.getElem?_eq_none_iff.mp found)⟩
      | some node =>
          have whole := count_drop_of_found found
          cases disabled : node.event.disabled with
          | true =>
              rcases continues forest (cursor + 1) state (by omega) (.inr (by omega)) with
                ⟨calls, result, after, onward⟩
              exact ⟨calls, result, after, .skip found disabled onward⟩
          | false =>
              rcases visit : Pass.visitor.visit node.event (.around forest cursor) state with
                ⟨⟨behavior, splice⟩, visited⟩
              rcases linkVisit_of_visit visit with ⟨_, ends⟩
              have visitedLeft := ends.remaining_le
              rcases splice.stays_or_goes with ⟨inserted, stays⟩ | ⟨nodes, goes⟩
              · rcases ends.eq_keep stays with ⟨rfl, rfl⟩
                rcases continues node.subEvents 0 visited (by omega)
                    (.inr (by rw [List.drop_zero]; omega)) with
                  ⟨inner, subEvents, below, inside⟩
                have belowLeft := inside.remaining_le
                have behind : Forest.count ((forest.splice cursor
                    [{ node.setBehavior behavior with subEvents }]).drop (cursor + 1)) < size := by
                  rw [Forest.drop_splice_cons found, List.nil_append]
                  omega
                rcases continues _ (cursor + 1) below (by omega) (.inr behind) with
                  ⟨outer, result, after, onward⟩
                exact ⟨_, result, after, .stay found disabled visit stays inside onward⟩
              · have spliced := Forest.drop_splice found nodes
                have discardedLeft : remainingExpansions
                    (Pass.visitor.discard (node.setBehavior behavior) visited).2 ≤ budget :=
                  Nat.le_trans visitedLeft (Nat.le_of_eq left)
                have progress : remainingExpansions
                      (Pass.visitor.discard (node.setBehavior behavior) visited).2 < budget ∨
                    Forest.count ((forest.splice cursor nodes).drop cursor) < size := by
                  rcases ends.replacement_cases goes with ⟨rfl, _⟩ | ⟨_, _, less⟩
                  · right
                    rw [spliced, List.nil_append]
                    omega
                  · left
                    exact Nat.lt_of_lt_of_eq less left
                rcases continues _ cursor _ discardedLeft progress with
                  ⟨calls, result, after, onward⟩
                exact ⟨_, result, after, .go found disabled visit goes onward⟩

end Preprocess

open Preprocess

/-- A pass over built-in kinds with a fresh context ends. It replaces links as long as
the budget lasts and there are links to known sheets, so a link to an unknown sheet uses
up nothing; it asks the nodes of the forest and those the expansions bring; and every
link it meets is replaced or reported. -/
theorem Forest.preprocess_within_budget (forest : Forest Builtin) (scope : String)
    (externals : Named (Forest Builtin)) (budget : Nat) (population : Population) :
    ∃ fuel result count after calls,
      forest.preprocess fuel
          ⟨{ scope, externals, maxLinkExpansions := budget }, population⟩ =
        some ((result, count), after) ∧
      forest.preprocessRecorded fuel
          ⟨{ scope, externals, maxLinkExpansions := budget }, population⟩ =
        some ((result, count), (after, calls)) ∧
      count = calls.length ∧
      count ≤ Forest.count forest + budget * largestSheet externals ∧
      calls.countP Call.expands ≤ budget ∧
      calls.countP Call.expands = min budget (calls.countP Call.isKnownLink) ∧
      calls.countP Call.expands = after.context.linkExpansions ∧
      calls.countP Call.isLink =
        calls.countP Call.expands + after.context.diagnostics.length := by
  rcases exists_traverses _ _ forest 0
      ⟨{ scope, externals, maxLinkExpansions := budget }, population⟩ rfl rfl with
    ⟨calls, result, after, traverses⟩
  rcases run_recording_iff.mpr ⟨traverses, rfl⟩ with ⟨fuel, ends⟩
  have plain := run_recording Pass.visitor fuel { ahead := forest } [] 0
    ⟨{ scope, externals, maxLinkExpansions := budget }, population⟩ []
  rw [ends, Option.map_some] at plain
  have counts := LinkCounts.of_traverses traverses
  have expansions : after.context.linkExpansions = 0 + calls.countP Call.expands :=
    counts.expansions
  have spent : after.context.linkExpansions = min budget (0 + calls.countP Call.isKnownLink) :=
    counts.spent (Nat.zero_le _)
  have reports : calls.countP Call.isLink + 0 =
      calls.countP Call.expands + after.context.diagnostics.length := counts.reports
  have within : calls.countP Call.expands ≤ budget := by omega
  have length := traverses.length_le (Nat.le_refl _)
  have brought := Nat.mul_le_mul_right (largestSheet externals) within
  refine ⟨fuel, result, calls.length, after, calls, plain.symm, ends, rfl, ?_, within, ?_, ?_, ?_⟩
  · exact Nat.le_trans length (Nat.add_le_add_left brought _)
  all_goals omega

end EventSheet
