import EventSheet.Proofs.Lineage.Accounts
import EventSheet.Proofs.Traversal.Links
namespace EventSheet

/-! # The account of a pass

During a pass nodes are in two places: the forest that is preprocessed, and the sheets that links
can include. A kind keeps the account when the nodes it splices in are its own, made on the spot or
moved out of the sheets. The traversal then keeps it too: it destroys what it takes out, and what
it puts in was given to it. -/

variable {β : Type}

/-- The nodes a splice brings along. -/
def Splice.given : Splice β → Forest β
  | .keep | .remove => []
  | .replace nodes | .insertAfter nodes => nodes

theorem Splice.given_of_inserted {splice : Splice β} {nodes : Forest β}
    (stays : splice.inserted? = some nodes) : splice.given = nodes := by
  cases splice with
  | keep => cases stays; rfl
  | insertAfter _ => cases stays; rfl
  | remove => cases stays
  | replace _ => cases stays

theorem Splice.given_of_replacement {splice : Splice β} {nodes : Forest β}
    (goes : splice.replacement? = some nodes) : splice.given = nodes := by
  cases splice with
  | keep => cases goes
  | insertAfter _ => cases goes
  | remove => cases goes; rfl
  | replace _ => cases goes; rfl

/-- The nodes of the sheets that links can include. -/
def PreprocessContext.sheets (context : PreprocessContext β) : Forest β :=
  context.externals.flatMap Prod.snd

/-- From one state of a pass to the next the nodes of `taken` are exchanged for those of `given`,
besides those of the sheets. -/
def PassState.Exchange (before : PassState β) (taken : Forest β) (after : PassState β)
    (given : Forest β) : Prop :=
  EventSheet.Exchange before.population
    (Forest.bonds before.context.sheets ++ Forest.bonds taken)
    after.population (Forest.bonds after.context.sheets ++ Forest.bonds given)

/-- Preprocessing an event brings no nodes into the forest that are somewhere else already, and
loses none. -/
def Behavior.KeepsAccounts (β : Type) [Behavior β] : Prop :=
  ∀ (behavior : β) (siblings : Siblings β) (state : PassState β),
    state.Exchange [] (Behavior.preprocess behavior siblings state).2
      (Behavior.preprocess behavior siblings state).1.2.given

/-- The built-in kinds only bring copies that links make. -/
theorem Kind.Builtin.keepsAccounts : Behavior.KeepsAccounts Builtin := by
  intro builtin siblings state
  have unchanged : ∀ problem, state.Exchange [] (state.report problem) [] :=
    fun _ => EventSheet.Exchange.refl _ _
  cases builtin with
  | standard _ => exact EventSheet.Exchange.refl _ _
  | comment _ => exact EventSheet.Exchange.refl _ _
  | branch _ => exact EventSheet.Exchange.refl _ _
  | repetition _ => exact EventSheet.Exchange.refl _ _
  | link link =>
      have asked : Behavior.preprocess (Builtin.link link) siblings state =
          ((Builtin.link link, (link.preprocess state).1), (link.preprocess state).2) := rfl
      rw [asked]
      cases known : state.context.external? link.target with
      | none =>
          rw [Link.preprocess_unknown known]
          exact unchanged _
      | some sheet =>
          by_cases within : state.context.linkExpansions < state.context.maxLinkExpansions
          · rw [Link.preprocess_expanded known within, PassState.expand,
              Forest.cloneRemembering_eq_copy]
            exact (Exchange.copyForest Event.itself sheet state.population).frameLeft _
          · rw [Link.preprocess_exhausted known (Nat.le_of_not_lt within)]
            exact unchanged _

/-! ## The forest at the cursor -/

namespace Forest

theorem bonds_of_found {forest : Forest β} {cursor : Nat} {node : Node β}
    (found : forest[cursor]? = some node) :
    bonds forest =
      bonds (forest.take cursor) ++ (node.bonds ++ bonds (forest.drop (cursor + 1))) := by
  rw [← bonds_cons, ← drop_of_found found, ← bonds_append, List.take_append_drop]

theorem bonds_splice (forest : Forest β) (cursor : Nat) (nodes : Forest β) :
    bonds (forest.splice cursor nodes) =
      bonds (forest.take cursor) ++ (bonds nodes ++ bonds (forest.drop (cursor + 1))) := by
  rw [splice, bonds_append, bonds_append, List.append_assoc]

end Forest

/-- A node keeps its bond and gets other sub-events. -/
theorem Node.bonds_passed (node : Node β) (behavior : β) (subEvents : Forest β) :
    ({ node.setBehavior behavior with subEvents } : Node β).bonds =
      node.event.bond :: Forest.bonds subEvents := by
  rw [bonds_eq]
  rfl

@[simp] theorem Node.bonds_setBehavior (node : Node β) (behavior : β) :
    (node.setBehavior behavior).bonds = node.bonds := by
  rw [bonds_eq, bonds_eq]
  rfl

/-! ## The pass -/

namespace Preprocess

variable [Behavior β] {forest result : Forest β} {cursor : Nat} {state after : PassState β}
  {calls : List (Call β (PassState β))}

theorem exchange_of_visit (keeps : Behavior.KeepsAccounts β) {event : Event β}
    {siblings : Siblings β} {behavior : β} {splice : Splice β} {visited : PassState β}
    (visit : Pass.visitor.visit event siblings state = ((behavior, splice), visited)) :
    state.Exchange [] visited splice.given := by
  have asked := keeps event.behavior siblings (state.asking event)
  rcases outcome : Behavior.preprocess event.behavior siblings (state.asking event) with
    ⟨⟨changed, given⟩, after⟩
  have visits : Pass.visitor.visit event siblings state = ((changed, given), after.settled) := by
    simp only [Pass.visitor, bind, StateT.bind]
    exact congrArg (fun result => (result.1, result.2.settled)) outcome
  rw [visits] at visit
  cases visit
  rw [outcome] at asked
  exact asked

/-- Whatever is in the forest after a pass was there before, is new, or was moved there. -/
theorem Traverses.exchange (keeps : Behavior.KeepsAccounts β)
    (traverses : Traverses Pass.visitor forest cursor state calls result after) :
    state.Exchange forest after result := by
  induction traverses with
  | finished _ => exact EventSheet.Exchange.refl _ _
  | skip _ _ _ induction => exact induction
  | @stay forest subEvents result inserted cursor node behavior splice state visited below after
      inner outer found enabled visit stays inside onward insideInduction onwardInduction =>
      have asked := exchange_of_visit keeps visit
      rw [Splice.given_of_inserted stays] at asked
      have brought := asked.frame (Forest.bonds forest)
      rw [Forest.bonds_nil, List.append_nil] at brought
      -- the pass below exchanges the sub-events while the rest stays in place
      have passed : EventSheet.Exchange visited.population
          (Forest.bonds visited.context.sheets ++ Forest.bonds inserted ++ Forest.bonds forest)
          below.population (Forest.bonds below.context.sheets ++ Forest.bonds
            (forest.splice cursor ({ node.setBehavior behavior with subEvents } :: inserted))) := by
        apply (insideInduction.frame (Forest.bonds inserted ++ Forest.bonds (forest.take cursor) ++
          node.event.bond :: Forest.bonds (forest.drop (cursor + 1)))).perm
        · rw [Forest.bonds_of_found found, Node.bonds_eq, List.perm_iff_count]
          intro bond
          simp only [List.count_append, List.count_cons]
          omega
        · rw [Forest.bonds_splice, Forest.bonds_cons, Node.bonds_passed, List.perm_iff_count]
          intro bond
          simp only [List.count_append, List.count_cons]
          omega
      exact (brought.trans passed).trans onwardInduction
  | @go forest result nodes cursor node behavior splice state visited after calls found enabled
      visit goes onward induction =>
      have asked := exchange_of_visit keeps visit
      rw [Splice.given_of_replacement goes] at asked
      have discarded := Exchange.destroyNode (node.setBehavior behavior) visited.population
      rw [Node.bonds_setBehavior] at discarded
      have gone : EventSheet.Exchange visited.population
          (Forest.bonds visited.context.sheets ++ Forest.bonds nodes ++ Forest.bonds forest)
          ((node.setBehavior behavior).destroy visited.population).2
          (Forest.bonds visited.context.sheets ++ Forest.bonds (forest.splice cursor nodes)) := by
        apply (discarded.frame (Forest.bonds visited.context.sheets ++
          Forest.bonds (forest.splice cursor nodes))).perm _ (List.Perm.refl _)
        rw [Forest.bonds_of_found found, Forest.bonds_splice, List.perm_iff_count]
        intro bond
        simp only [List.count_append]
        omega
      have replaced := (asked.frame (Forest.bonds forest)).trans gone
      rw [Forest.bonds_nil, List.append_nil] at replaced
      exact replaced.trans induction

/-- A node in the forest after a pass was in it before or was given by one of the events asked. -/
theorem Traverses.bond_origin
    (traverses : Traverses Pass.visitor forest cursor state calls result after) :
    ∀ bond ∈ Forest.bonds result, bond ∈ Forest.bonds forest ∨
      ∃ call ∈ calls, bond ∈ Forest.bonds call.answer.given := by
  induction traverses with
  | finished _ => exact fun _ isMember => .inl isMember
  | skip _ _ _ induction => exact induction
  | @stay forest subEvents result inserted cursor node behavior splice state visited below after
      inner outer found enabled visit stays inside onward insideInduction onwardInduction =>
      intro bond isMember
      rcases onwardInduction bond isMember with isSpliced | ⟨call, isCall, isGiven⟩
      · rw [Forest.bonds_splice, Forest.bonds_cons, Node.bonds_passed] at isSpliced
        rw [Forest.bonds_of_found found, Node.bonds_eq]
        simp only [List.mem_append, List.mem_cons] at isSpliced ⊢
        rcases isSpliced with isBefore | ((isTop | isBelow) | isInserted) | isBehind
        · exact .inl (.inl isBefore)
        · exact .inl (.inr (.inl (.inl isTop)))
        · rcases insideInduction bond isBelow with isSub | ⟨call, isCall, isGiven⟩
          · exact .inl (.inr (.inl (.inr isSub)))
          · exact .inr ⟨call, .inr (.inl isCall), isGiven⟩
        · refine .inr ⟨_, .inl rfl, ?_⟩
          rw [Splice.given_of_inserted stays]
          exact isInserted
        · exact .inl (.inr (.inr isBehind))
      · refine .inr ⟨call, ?_, isGiven⟩
        exact List.mem_cons_of_mem _ (List.mem_append_right _ isCall)
  | @go forest result nodes cursor node behavior splice state visited after calls found enabled
      visit goes onward induction =>
      intro bond isMember
      rcases induction bond isMember with isSpliced | ⟨call, isCall, isGiven⟩
      · rw [Forest.bonds_splice] at isSpliced
        rw [Forest.bonds_of_found found]
        simp only [List.mem_append] at isSpliced ⊢
        rcases isSpliced with isBefore | isNew | isBehind
        · exact .inl (.inl isBefore)
        · refine .inr ⟨_, List.mem_cons_self, ?_⟩
          rw [Splice.given_of_replacement goes]
          exact isNew
        · exact .inl (.inr (.inr isBehind))
      · exact .inr ⟨call, List.mem_cons_of_mem _ isCall, isGiven⟩

end Preprocess

end EventSheet
