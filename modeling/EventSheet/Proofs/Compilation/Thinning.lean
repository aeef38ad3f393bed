import EventSheet.Proofs.Compilation.Attribution
import EventSheet.Proofs.Compilation.ProgramLines
import EventSheet.Proofs.Traversal.Inlining
namespace EventSheet

/-! # Two compilations side by side

Some events contribute nothing, and much of what an event carries is never looked at. Both are said
by comparing two compilations: one forest is the other with some trees taken out and every other
event replaced by one that is related to it. As long as the trees taken out are silent and related
events are of one behavior and disabled together, the pass over the one goes along with the pass
over the other, and leaves two forests of which one is the other thinned in the same way. -/

/-- Related entries are kept together. -/
theorem forall₂_filter_cons {α γ : Type} {Related : α → γ → Prop} {keeps : α → Bool}
    {keepsOther : γ → Bool} {head : α} {other : γ} {tail : List α} {others : List γ}
    (related : Related head other) (alike : keepsOther other = keeps head)
    (rest : List.Forall₂ Related (tail.filter keeps) (others.filter keepsOther)) :
    List.Forall₂ Related ((head :: tail).filter keeps) ((other :: others).filter keepsOther) := by
  rw [List.filter_cons, List.filter_cons, alike]
  split
  · exact .cons related rest
  · exact rest

/-! ## Thinned forests -/

/-- The second forest is what becomes of the first when trees that may go are taken out, and all
other events give way to related ones. -/
inductive Forest.ThinsTo {β : Type} (MayGo : Node β → Prop) (Stands : Event β → Event β → Prop) :
    List (Node β) → List (Node β) → Prop
  | nil : ThinsTo MayGo Stands [] []
  | drop {head : Node β} {tail rest : List (Node β)} (mayGo : MayGo head)
      (behind : ThinsTo MayGo Stands tail rest) : ThinsTo MayGo Stands (head :: tail) rest
  | keep {head node : Node β} {tail rest : List (Node β)} (same : Stands head.event node.event)
      (inside : ThinsTo MayGo Stands head.subEvents node.subEvents)
      (behind : ThinsTo MayGo Stands tail rest) :
      ThinsTo MayGo Stands (head :: tail) (node :: rest)

namespace Forest.ThinsTo

variable {β : Type} {MayGo Departs : Node β → Prop} {Stands Follows : Event β → Event β → Prop}
  {forest thinned others rest : Forest β}

theorem append (first : ThinsTo MayGo Stands forest thinned)
    (second : ThinsTo MayGo Stands others rest) :
    ThinsTo MayGo Stands (forest ++ others) (thinned ++ rest) := by
  induction first with
  | nil => exact second
  | drop mayGo _ induction => exact .drop mayGo induction
  | keep same inside _ _ induction => exact .keep same inside induction

theorem eq_nil (thins : ThinsTo MayGo Stands [] thinned) : thinned = [] := by
  cases thins
  rfl

/-- More may go, and what is known of the events of both forests relates more of them. -/
theorem mono (thins : ThinsTo MayGo Stands forest thinned)
    (departs : ∀ node, MayGo node → Departs node)
    (follows : ∀ event ∈ members forest, ∀ other ∈ members thinned,
      Stands event other → Follows event other) : ThinsTo Departs Follows forest thinned := by
  induction thins with
  | nil => exact .nil
  | drop mayGo _ induction =>
      refine .drop (departs _ mayGo) (induction fun event isMember => ?_)
      exact follows event (List.mem_append_right _ isMember)
  | @keep head node tail rest same _ _ insideInduction behindInduction =>
      rw [members, members, Node.members_eq, Node.members_eq] at follows
      refine .keep ?_ (insideInduction ?_) (behindInduction ?_)
      · exact follows _ (List.mem_append_left _ List.mem_cons_self) _
          (List.mem_append_left _ List.mem_cons_self) same
      · intro event isMember other isOther
        exact follows event (List.mem_append_left _ (List.mem_cons_of_mem _ isMember)) other
          (List.mem_append_left _ (List.mem_cons_of_mem _ isOther))
      · intro event isMember other isOther
        exact follows event (List.mem_append_right _ isMember) other
          (List.mem_append_right _ isOther)

/-- Forests that thin to one another without losing a node are of one shape. -/
theorem count_eq (thins : ThinsTo (fun _ => False) Stands forest thinned) :
    count thinned = count forest := by
  induction thins with
  | nil => rfl
  | drop mayGo _ _ => exact mayGo.elim
  | @keep head node tail rest _ _ _ inside behind =>
      cases head
      cases node
      exact congrArg₂ (· + ·) (congrArg (· + 1) inside) behind

/-- Copies thin like the forests they are made from. -/
theorem copy (thins : ThinsTo MayGo Stands forest thinned)
    (departs : ∀ node population, MayGo node → Departs (node.copy Event.itself population).1)
    (follows : ∀ event other copied copiedOther, Stands event other → copied.IsCopyOf event →
      copiedOther.IsCopyOf other → Follows copied copiedOther) :
    ∀ population populationOther, ThinsTo Departs Follows
      (cloneRemembering forest population).1 (cloneRemembering thinned populationOther).1 := by
  rw [cloneRemembering_eq_copy, cloneRemembering_eq_copy]
  induction thins with
  | nil => exact fun _ _ => .nil
  | drop mayGo _ induction =>
      exact fun population _ => .drop (departs _ population mayGo) (induction _ _)
  | @keep head node tail rest same _ _ insideInduction behindInduction =>
      intro population populationOther
      rcases head with ⟨event, subEvents⟩
      rcases node with ⟨other, otherSubEvents⟩
      exact .keep (follows event other _ _ same rfl rfl) (insideInduction _ _)
        (behindInduction _ _)

end Forest.ThinsTo

/-! ## Silent events -/

open Kind (Builtin)
open Preprocess

namespace Event

/-- Disabled events and comments. -/
def isSilent (event : Event Builtin) : Bool :=
  event.disabled ||
    match event.behavior with
    | .comment _ => true
    | _ => false

theorem isSilent_congr {event other : Event Builtin} (behavior : other.behavior = event.behavior)
    (disabled : other.disabled = event.disabled) : other.isSilent = event.isSilent := by
  rw [isSilent, isSilent, behavior, disabled]

theorem generatesSubEvents_congr {event other : Event Builtin}
    (behavior : other.behavior = event.behavior) (disabled : other.disabled = event.disabled) :
    other.generatesSubEvents = event.generatesSubEvents := by
  rw [generatesSubEvents, generatesSubEvents, behavior, disabled]

theorem reports_congr {event other : Event Builtin}
    (behavior : other.behavior = event.behavior) (disabled : other.disabled = event.disabled) :
    other.reports = event.reports := by
  rw [reports, reports, behavior, disabled]

theorem blocks_congr {event other : Event Builtin} (behavior : other.behavior = event.behavior)
    {ancestors others : List (Event Builtin)} (outside : blocks others = blocks ancestors) :
    blocks (other :: others) = blocks (event :: ancestors) := by
  rw [blocks_cons, blocks_cons, outside, isRepetition, behavior, ← isRepetition]

theorem cases_of_isSilent {event : Event Builtin} (silent : event.isSilent = true) :
    event.disabled = true ∨ ∃ comment, event.behavior = .comment comment := by
  rw [isSilent, Bool.or_eq_true] at silent
  refine silent.imp_right fun isComment => ?_
  cases kind : event.behavior with
  | comment comment => exact ⟨comment, rfl⟩
  | standard _ | branch _ | repetition _ | link _ =>
      rw [kind] at isComment
      cases isComment

theorem noLink_of_isSilent {event : Event Builtin} (silent : event.isSilent = true)
    (enabled : event.disabled = false) : event.behavior.target? = none := by
  rcases cases_of_isSilent silent with disabled | ⟨comment, kind⟩
  · cases enabled.symm.trans disabled
  · rw [kind]
    rfl

end Event

/-- The tree of a silent event in which nothing else is looked at. -/
structure Node.IsSilent (node : Node Builtin) : Prop where
  event : node.event.isSilent = true
  below : node.event.disabled = true ∨ node.subEvents = []

/-- The node in front of what is still to come is the one at the cursor. -/
theorem Forest.found_of_drop {β : Type} {forest rest : Forest β} {cursor : Nat} {node : Node β}
    (ahead : forest.drop cursor = node :: rest) :
    forest[cursor]? = some node ∧ rest = forest.drop (cursor + 1) := by
  have found : forest[cursor]? = some node := by
    rw [← List.head?_drop, ahead, List.head?_cons]
  rw [drop_of_found found] at ahead
  exact ⟨found, (List.cons.inj ahead).2.symm⟩

/-! ## Visits side by side -/

/-- Two contexts of passes that go along with one another: as much of the budget is left, and
copies of a sheet of the one are those of the sheet of the other, thinned. -/
structure PreprocessContext.GoesAlong (MayGo : Node Builtin → Prop)
    (Stands : Event Builtin → Event Builtin → Prop) (context other : PreprocessContext Builtin) :
    Prop where
  expansions : other.linkExpansions = context.linkExpansions
  limit : other.maxLinkExpansions = context.maxLinkExpansions
  sheets : ∀ target, Option.Rel
    (fun sheet otherSheet => ∀ population populationOther, Forest.ThinsTo MayGo Stands
      (Forest.cloneRemembering sheet population).1
      (Forest.cloneRemembering otherSheet populationOther).1)
    (context.external? target) (other.external? target)

namespace PreprocessContext.GoesAlong

variable {MayGo : Node Builtin → Prop} {Stands : Event Builtin → Event Builtin → Prop}
  {context other : PreprocessContext Builtin} {target : String}

theorem missing (along : GoesAlong MayGo Stands context other)
    (missing : context.external? target = none) : other.external? target = none := by
  have sheets := along.sheets target
  rw [missing] at sheets
  cases found : other.external? target with
  | none => rfl
  | some _ =>
      rw [found] at sheets
      cases sheets

theorem known (along : GoesAlong MayGo Stands context other) {sheet : Forest Builtin}
    (known : context.external? target = some sheet) :
    ∃ otherSheet, other.external? target = some otherSheet ∧
      ∀ population populationOther, Forest.ThinsTo MayGo Stands
        (Forest.cloneRemembering sheet population).1
        (Forest.cloneRemembering otherSheet populationOther).1 := by
  have sheets := along.sheets target
  rw [known] at sheets
  cases found : other.external? target with
  | none =>
      rw [found] at sheets
      cases sheets
  | some otherSheet =>
      rw [found] at sheets
      cases sheets with
      | some thins => exact ⟨otherSheet, rfl, thins⟩

end PreprocessContext.GoesAlong

namespace Preprocess

variable {MayGo : Node Builtin → Prop} {Stands : Event Builtin → Event Builtin → Prop}

theorem visit_exhausted (event : Event Builtin) {target : String} (state : PassState Builtin)
    {sheet : Forest Builtin} (link : event.behavior.target? = some target)
    (known : state.context.external? target = some sheet)
    (spent : state.context.maxLinkExpansions ≤ state.context.linkExpansions)
    (siblings : Siblings Builtin) :
    Pass.visitor.visit event siblings state = ((event.behavior, .remove),
      ((state.asking event).report (Kind.Link.tooManyLinks target)).settled) := by
  rcases visit : Pass.visitor.visit event siblings state with ⟨⟨behavior, splice⟩, visited⟩
  rcases linkVisit_of_visit visit with ⟨rfl, ends⟩
  cases ends with
  | plain noLink => exact absurd (noLink.symm.trans link) nofun
  | unknown again missing =>
      cases link.symm.trans again
      exact absurd (missing.symm.trans known) nofun
  | expanded _ _ within => exact absurd within (Nat.not_lt_of_le spent)
  | exhausted again _ _ =>
      cases link.symm.trans again
      rfl

/-- An event of the same behavior is visited in the same way, and what takes its place is thinned. -/
theorem LinkVisit.follow {event : Event Builtin} {state visited : PassState Builtin}
    {splice : Splice Builtin} (visit : LinkVisit event state splice visited)
    {other : Event Builtin} (same : other.behavior = event.behavior)
    {stateOther : PassState Builtin}
    (along : PreprocessContext.GoesAlong MayGo Stands state.context stateOther.context)
    (siblings : Siblings Builtin) :
    ∃ answer visitedOther,
      Pass.visitor.visit other siblings stateOther = ((other.behavior, answer), visitedOther) ∧
      answer.inserted? = splice.inserted? ∧
      Option.Rel (Forest.ThinsTo MayGo Stands) splice.replacement? answer.replacement? ∧
      PreprocessContext.GoesAlong MayGo Stands visited.context visitedOther.context := by
  cases visit with
  | plain noLink =>
      exact ⟨_, _, visit_other other stateOther (by rwa [same]) siblings, rfl, .none,
        along.expansions, along.limit, along.sheets⟩
  | unknown link missing =>
      exact ⟨_, _, visit_unknown other stateOther (by rwa [same]) (along.missing missing) siblings,
        rfl, .some .nil, along.expansions, along.limit, along.sheets⟩
  | expanded link known within =>
      rcases along.known known with ⟨sheet, knownOther, thins⟩
      rw [← along.expansions, ← along.limit] at within
      exact ⟨_, _, visit_included other stateOther (by rwa [same]) knownOther within siblings,
        rfl, .some (thins _ _), congrArg (· + 1) along.expansions, along.limit, along.sheets⟩
  | exhausted link known spent =>
      rcases along.known known with ⟨sheet, knownOther, -⟩
      rw [← along.expansions, ← along.limit] at spent
      exact ⟨_, _, visit_exhausted other stateOther (by rwa [same]) knownOther spent siblings,
        rfl, .some .nil, along.expansions, along.limit, along.sheets⟩

/-- Calls for related events that meet the same problem. -/
structure Call.Echoes (Stands : Event Builtin → Event Builtin → Prop)
    (call other : Call Builtin (PassState Builtin)) : Prop where
  event : Stands call.event other.event
  reports : other.reports = call.reports

theorem Call.isLink_congr {call other : Call Builtin (PassState Builtin)}
    (same : other.event.behavior = call.event.behavior) : other.isLink = call.isLink := by
  rw [isLink, isLink, same]

theorem Call.reports_congr {call other : Call Builtin (PassState Builtin)}
    (same : other.event.behavior = call.event.behavior)
    (along : PreprocessContext.GoesAlong MayGo Stands call.state.context other.state.context) :
    other.reports = call.reports := by
  rw [reports, reports, same, along.expansions, along.limit]
  cases call.event.behavior.target? with
  | none => rfl
  | some target =>
      cases known : call.state.context.external? target with
      | none => simp only [known, along.missing known]
      | some sheet =>
          rcases along.known known with ⟨otherSheet, knownOther, -⟩
          simp only [known, knownOther, Option.isNone_some]

/-! ## Passes side by side -/

section

variable {visitor : Visitor Builtin (PassState Builtin)} {forest result : Forest Builtin}
  {cursor : Nat} {node : Node Builtin} {state after : PassState Builtin}
  {calls : List (Call Builtin (PassState Builtin))}

/-- A node the cursor has gone past stays in front of what is still to come. -/
theorem Traverses.drop_eq
    (onward : Traverses visitor forest (cursor + 1) state calls result after)
    (found : forest[cursor]? = some node) :
    result.drop cursor = node :: result.drop (cursor + 1) := by
  have taken := onward.enabledIds_eq.1
  rw [Forest.take_succ_of_found found] at taken
  exact Forest.drop_of_found
    (Forest.found_of_take (Forest.length_take_of_found found) taken).1

end

/-- Another pass goes along with one that makes these calls and leaves these nodes: what it leaves
is thinned, and its links meet the same problems. -/
def Followed (MayGo : Node Builtin → Prop) (Stands : Event Builtin → Event Builtin → Prop)
    (calls : List (Call Builtin (PassState Builtin))) (left : List (Node Builtin))
    (after : PassState Builtin) (thinned : Forest Builtin) (cursor : Nat)
    (state : PassState Builtin) : Prop :=
  ∃ callsOther resultOther afterOther,
    Traverses Pass.visitor thinned cursor state callsOther resultOther afterOther ∧
    Forest.ThinsTo MayGo Stands left (resultOther.drop cursor) ∧
    PreprocessContext.GoesAlong MayGo Stands after.context afterOther.context ∧
    List.Forall₂ (Call.Echoes Stands) (calls.filter Call.isLink) (callsOther.filter Call.isLink)

namespace Followed

variable {calls inner outer : List (Call Builtin (PassState Builtin))}
  {left subEvents : List (Node Builtin)} {state visited below after : PassState Builtin}
  {thinned : Forest Builtin} {cursor : Nat} {node other : Node Builtin}
  {call : Call Builtin (PassState Builtin)} {splice : Splice Builtin}

/-- The other pass has nothing to do for a tree that went. -/
theorem drop (mayGo : MayGo node)
    (followed : Followed MayGo Stands calls left after thinned cursor state) :
    Followed MayGo Stands calls (node :: left) after thinned cursor state := by
  rcases followed with ⟨callsOther, resultOther, afterOther, walks, leaves, ends⟩
  exact ⟨callsOther, resultOther, afterOther, walks, .drop mayGo leaves, ends⟩

theorem skip (found : thinned[cursor]? = some other) (disabled : other.event.disabled = true)
    (same : Stands node.event other.event)
    (inside : Forest.ThinsTo MayGo Stands node.subEvents other.subEvents)
    (followed : Followed MayGo Stands calls left after thinned (cursor + 1) state) :
    Followed MayGo Stands calls (node :: left) after thinned cursor state := by
  rcases followed with ⟨callsOther, resultOther, afterOther, walks, leaves, ends⟩
  refine ⟨callsOther, resultOther, afterOther, .skip found disabled walks, ?_, ends⟩
  rw [walks.drop_eq found]
  exact .keep same inside leaves

theorem stay (found : thinned[cursor]? = some other) (enabled : other.event.disabled = false)
    (visit : Pass.visitor.visit other.event (.around thinned cursor) state =
      ((other.event.behavior, splice), visited))
    (stays : splice.inserted? = some [])
    (echoes : call.Echoes Stands ⟨other.event, cursor, .around thinned cursor, state, splice⟩)
    (alike : Call.isLink ⟨other.event, cursor, .around thinned cursor, state, splice⟩ =
      call.isLink)
    (same : Stands node.event other.event)
    (inside : Followed MayGo Stands inner subEvents below other.subEvents 0 visited)
    (onward : ∀ (subEventsOther : Forest Builtin) (belowOther : PassState Builtin),
      PreprocessContext.GoesAlong MayGo Stands below.context belowOther.context →
      Followed MayGo Stands outer left after
        (thinned.splice cursor
          [{ other.setBehavior other.event.behavior with subEvents := subEventsOther }])
        (cursor + 1) belowOther) :
    Followed MayGo Stands (call :: (inner ++ outer)) ({ node with subEvents } :: left) after
      thinned cursor state := by
  rcases inside with ⟨innerOther, subEventsOther, belowOther, walksInside, leavesInside, along,
    innerEchoes⟩
  rcases onward subEventsOther belowOther along with
    ⟨outerOther, resultOther, afterOther, walks, leaves, afterAlong, outerEchoes⟩
  refine ⟨_, resultOther, afterOther, .stay found enabled visit stays walksInside walks, ?_,
    afterAlong, ?_⟩
  · rw [walks.drop_eq (Forest.getElem?_splice_cons found [] _)]
    exact .keep same leavesInside leaves
  · apply forall₂_filter_cons echoes alike
    rw [List.filter_append, List.filter_append]
    exact List.rel_append innerEchoes outerEchoes

theorem go {nodes : Forest Builtin} (found : thinned[cursor]? = some other)
    (enabled : other.event.disabled = false)
    (visit : Pass.visitor.visit other.event (.around thinned cursor) state =
      ((other.event.behavior, splice), visited))
    (goes : splice.replacement? = some nodes)
    (echoes : call.Echoes Stands ⟨other.event, cursor, .around thinned cursor, state, splice⟩)
    (alike : Call.isLink ⟨other.event, cursor, .around thinned cursor, state, splice⟩ =
      call.isLink)
    (onward : Followed MayGo Stands calls left after (thinned.splice cursor nodes) cursor
      (Pass.visitor.discard (other.setBehavior other.event.behavior) visited).2) :
    Followed MayGo Stands (call :: calls) left after thinned cursor state := by
  rcases onward with ⟨callsOther, resultOther, afterOther, walks, leaves, along, ends⟩
  exact ⟨_, resultOther, afterOther, .go found enabled visit goes walks, leaves, along,
    forall₂_filter_cons echoes alike ends⟩

end Followed

/-- The pass over a thinned forest goes along with the pass over the forest. -/
theorem Traverses.followed {forest result : Forest Builtin} {cursor : Nat}
    {state after : PassState Builtin} {calls : List (Call Builtin (PassState Builtin))}
    (traverses : Traverses Pass.visitor forest cursor state calls result after)
    (faithful : Event.Faithful Stands) (silent : ∀ node, MayGo node → node.IsSilent)
    {thinned : Forest Builtin} {cursorOther : Nat} {stateOther : PassState Builtin}
    (thins : Forest.ThinsTo MayGo Stands (forest.drop cursor) (thinned.drop cursorOther))
    (along : PreprocessContext.GoesAlong MayGo Stands state.context stateOther.context) :
    Followed MayGo Stands calls (result.drop cursor) after thinned cursorOther stateOther := by
  induction traverses generalizing thinned cursorOther stateOther with
  | finished passed =>
      rw [List.drop_of_length_le passed] at thins ⊢
      have ended := thins.eq_nil
      refine ⟨[], thinned, stateOther, .finished (List.drop_eq_nil_iff.mp ended), ?_, along, .nil⟩
      rw [ended]
      exact .nil
  | @skip forest result cursor node state after calls found disabled onward induction =>
      rw [Forest.drop_of_found found] at thins
      rw [onward.drop_eq found]
      generalize ahead : thinned.drop cursorOther = rest at thins
      cases thins with
      | drop mayGo behind =>
          subst ahead
          exact (induction behind along).drop mayGo
      | keep same inside behind =>
          rcases Forest.found_of_drop ahead with ⟨foundOther, rfl⟩
          have skipped := (faithful _ _ same).2.trans disabled
          exact (induction behind along).skip foundOther skipped same inside
  | @stay forest subEvents result inserted cursor node behavior splice state visited below after
      inner outer found enabled visit stays inside onward insideInduction onwardInduction =>
      rcases linkVisit_of_visit visit with ⟨rfl, ends⟩
      rcases ends.eq_keep stays with ⟨rfl, rfl⟩
      rw [Forest.drop_of_found found] at thins
      rw [Forest.drop_splice_cons found, List.nil_append] at onwardInduction
      rw [onward.drop_eq (Forest.getElem?_splice_cons found [] _)]
      generalize ahead : thinned.drop cursorOther = rest at thins
      cases thins with
      | drop mayGo behind =>
          subst ahead
          -- a comment has nothing below it that could be visited
          have childless := (silent node mayGo).below.resolve_left
            (by rw [enabled]; exact Bool.false_ne_true)
          rcases (childless ▸ inside).of_nil with ⟨rfl, rfl, rfl⟩
          rcases ends.noLink stays with ⟨notLink, settled⟩
          have visitedAlong : PreprocessContext.GoesAlong MayGo Stands below.context
              stateOther.context := by
            rw [settled]
            exact ⟨along.expansions, along.limit, along.sheets⟩
          rw [List.nil_append, Followed, List.filter_cons_of_neg (by simp [Call.isLink, notLink])]
          refine (onwardInduction behind visitedAlong).drop ?_
          rwa [← childless, Node.passed_self]
      | @keep _ nodeOther _ _ same insideThins behind =>
          rcases Forest.found_of_drop ahead with ⟨foundOther, rfl⟩
          rcases faithful _ _ same with ⟨sameBehavior, sameFlag⟩
          rcases ends.follow sameBehavior along (.around thinned cursorOther) with
            ⟨answer, visitedOther, visitOther, sameInserted, -, visitedAlong⟩
          rw [← List.drop_zero (l := node.subEvents),
            ← List.drop_zero (l := nodeOther.subEvents)] at insideThins
          refine Followed.stay foundOther (sameFlag.trans enabled) visitOther
            (sameInserted.trans stays) ⟨same, Call.reports_congr sameBehavior along⟩
            (Call.isLink_congr sameBehavior) same (insideInduction insideThins visitedAlong) ?_
          intro subEventsOther belowOther belowAlong
          apply onwardInduction _ belowAlong
          rwa [Forest.drop_splice_cons foundOther, List.nil_append]
  | @go forest result nodes cursor node behavior splice state visited after calls found enabled
      visit goes onward induction =>
      rcases linkVisit_of_visit visit with ⟨rfl, ends⟩
      rw [Forest.drop_of_found found] at thins
      rw [Forest.drop_splice found] at induction
      generalize ahead : thinned.drop cursorOther = rest at thins
      cases thins with
      | drop mayGo behind =>
          have notLink := Event.noLink_of_isSilent (silent node mayGo).event enabled
          cases ends with
          | plain _ => cases goes
          | unknown link _ => cases notLink.symm.trans link
          | expanded link _ _ => cases notLink.symm.trans link
          | exhausted link _ _ => cases notLink.symm.trans link
      | @keep _ nodeOther _ _ same insideThins behind =>
          rcases Forest.found_of_drop ahead with ⟨foundOther, rfl⟩
          rcases faithful _ _ same with ⟨sameBehavior, sameFlag⟩
          rcases ends.follow sameBehavior along (.around thinned cursorOther) with
            ⟨answer, visitedOther, visitOther, -, replaced, visitedAlong⟩
          rw [goes] at replaced
          generalize goesOther : answer.replacement? = replacement at replaced
          cases replaced with
          | @some _ nodesOther thinsNodes =>
            apply Followed.go foundOther (sameFlag.trans enabled) visitOther goesOther
              ⟨same, Call.reports_congr sameBehavior along⟩ (Call.isLink_congr sameBehavior)
            apply induction
            · rw [Forest.drop_splice foundOther]
              exact thinsNodes.append behind
            · exact visitedAlong

end Preprocess

/-! ## Code side by side -/

open Codegen

section

variable {settings : Settings} {population populationOther : Population}
  {MayGo : Node Builtin → Prop} {Stands : Event Builtin → Event Builtin → Prop}
  {forest thinned : Forest Builtin}

theorem Node.program_of_silent {node : Node Builtin} (silent : node.event.isSilent = true)
    (depth : Nat) : node.program settings population depth = pure [] := by
  rcases node with ⟨event, subEvents⟩
  rw [program]
  rcases event.cases_of_isSilent silent with disabled | ⟨comment, kind⟩
  · rw [disabled]
    rfl
  · rw [kind]
    exact ite_self _

/-- The statements of a node depend on its event and on the statements below it. -/
theorem Node.program_congr {node other : Node Builtin}
    (behavior : other.event.behavior = node.event.behavior)
    (disabled : other.event.disabled = node.event.disabled)
    (below : ∀ depth, Forest.programs settings populationOther depth other.subEvents =
      Forest.programs settings population depth node.subEvents) (depth : Nat) :
    other.program settings populationOther depth = node.program settings population depth := by
  cases node
  cases other
  rw [program, program, disabled, behavior, below, below]

/-- Whose hooks they are does not matter when there are none. -/
theorem BlockProgram.withHooks_congr {emitHooks : Bool} {id other : NodeId}
    (same : emitHooks = true → other = id) (program : BlockProgram) :
    program.withHooks emitHooks other = program.withHooks emitHooks id := by
  cases emitHooks with
  | true => rw [same rfl]
  | false => rfl

namespace Forest.ThinsTo

/-- A thinned forest has the same statements. -/
theorem programs_eq (thins : ThinsTo MayGo Stands forest thinned)
    (faithful : Event.Faithful Stands) (silent : ∀ node, MayGo node → node.event.isSilent = true)
    (named : ∀ event other, Stands event other → settings.profiling.emitHooks = true →
      other.sourceId populationOther = event.sourceId population) :
    ∀ depth, programs settings populationOther depth thinned =
      programs settings population depth forest := by
  induction thins with
  | nil => exact fun _ => rfl
  | @drop head tail rest mayGo _ induction =>
      intro depth
      rw [induction, programs, Node.program_of_silent (silent head mayGo)]
      rfl
  | @keep head node tail rest same _ _ insideInduction behindInduction =>
      intro depth
      rcases faithful _ _ same with ⟨behavior, disabled⟩
      rw [programs, programs, Node.program_congr behavior disabled insideInduction,
        behindInduction]
      simp only [BlockProgram.withHooks_congr (named _ _ same)]

theorem source_eq {state stateOther : PassState Builtin}
    (thins : ThinsTo MayGo Stands forest thinned) (faithful : Event.Faithful Stands)
    (silent : ∀ node, MayGo node → node.event.isSilent = true)
    (named : ∀ event other, Stands event other → settings.profiling.emitHooks = true →
      other.sourceId stateOther.population = event.sourceId state.population) :
    (codeOf settings thinned stateOther).source = (codeOf settings forest state).source := by
  have programs := thins.programs_eq faithful silent named 0
  rw [codeOf, codeOf, Program.generate_eq_layout, Program.generate_eq_layout, program, program,
    programs]

end Forest.ThinsTo

/-! ## Reports side by side -/

/-- Nothing is generated for a silent event, nor below it. -/
theorem Event.generatesSubEvents_of_isSilent {event : Event Builtin}
    (silent : event.isSilent = true) : event.generatesSubEvents = false ∧ event.reports = [] := by
  rw [generatesSubEvents, reports]
  rcases cases_of_isSilent silent with disabled | ⟨comment, kind⟩
  · rw [disabled]
    exact ⟨rfl, rfl⟩
  · rw [kind]
    exact ⟨Bool.and_false _, ite_self _⟩

namespace Lineage

/-- The event of the node may contribute something. -/
def isLoud (lineage : Lineage Builtin) : Bool := !lineage.node.event.isSilent

/-- Nodes in as many blocks, with related events and sub-events of which some are thinned. -/
structure Echoes (MayGo : Node Builtin → Prop) (Stands : Event Builtin → Event Builtin → Prop)
    (lineage other : Lineage Builtin) : Prop where
  event : Stands lineage.node.event other.node.event
  blocks : Event.blocks other.ancestors = Event.blocks lineage.ancestors
  below : Forest.ThinsTo MayGo Stands lineage.node.subEvents other.node.subEvents

end Lineage

/-- The nodes of a thinned forest that are reached are those of the forest, but for silent ones. -/
theorem Forest.ThinsTo.reachedLineages (thins : ThinsTo MayGo Stands forest thinned)
    (faithful : Event.Faithful Stands) (silent : ∀ node, MayGo node → node.event.isSilent = true) :
    ∀ ancestors others : List (Event Builtin), Event.blocks others = Event.blocks ancestors →
      others.all Event.generatesSubEvents = ancestors.all Event.generatesSubEvents →
      List.Forall₂ (Lineage.Echoes MayGo Stands)
        ((Program.reachedLineages settings ancestors forest).filter Lineage.isLoud)
        ((Program.reachedLineages settings others thinned).filter Lineage.isLoud) := by
  have stops {ancestors others : List (Event Builtin)}
      (blocks : Event.blocks others = Event.blocks ancestors)
      (passing : others.all Event.generatesSubEvents = ancestors.all Event.generatesSubEvents)
      (stopped : ¬ (ancestors.all Event.generatesSubEvents = true ∧
        Event.blocks ancestors ≤ settings.limits.maxNestingDepth.toNat))
      (forest rest : List (Node Builtin)) :
      Program.reachedLineages settings ancestors forest = [] ∧
        Program.reachedLineages settings others rest = [] :=
    ⟨Program.reachedLineages_eq_nil stopped forest,
      Program.reachedLineages_eq_nil (by rwa [blocks, passing]) rest⟩
  induction thins with
  | nil => exact fun _ _ _ _ => .nil
  | @drop head tail rest mayGo _ induction =>
      intro ancestors others blocks passing
      have skipped : Lineage.isLoud ⟨ancestors, head⟩ = false := congrArg (!·) (silent head mayGo)
      by_cases passes : ancestors.all Event.generatesSubEvents = true ∧
          Event.blocks ancestors ≤ settings.limits.maxNestingDepth.toNat
      · have stops := (Event.generatesSubEvents_of_isSilent (silent head mayGo)).1
        have below : Program.reachedLineages settings (head.event :: ancestors) head.subEvents =
            [] := Program.reachedLineages_below_eq_nil stops _
        rw [Program.reachedLineages_cons passes.1 passes.2, below, List.singleton_append,
          List.filter_cons_of_neg (ne_true_of_eq_false skipped)]
        exact induction ancestors others blocks passing
      · rcases stops blocks passing passes (head :: tail) rest with ⟨none, noneOther⟩
        rw [none, noneOther]
        exact .nil
  | @keep head node tail rest same inside _ insideInduction behindInduction =>
      intro ancestors others blocks passing
      rcases faithful _ _ same with ⟨behavior, disabled⟩
      by_cases passes : ancestors.all Event.generatesSubEvents = true ∧
          Event.blocks ancestors ≤ settings.limits.maxNestingDepth.toNat
      · have blocksBelow : Event.blocks (node.event :: others) =
            Event.blocks (head.event :: ancestors) := Event.blocks_congr behavior blocks
        have passingBelow : (node.event :: others).all Event.generatesSubEvents =
            (head.event :: ancestors).all Event.generatesSubEvents := by
          rw [List.all_cons, List.all_cons, passing,
            Event.generatesSubEvents_congr behavior disabled]
        have below := insideInduction _ _ blocksBelow passingBelow
        rw [Program.reachedLineages_cons passes.1 passes.2,
          Program.reachedLineages_cons (by rw [passing]; exact passes.1)
            (by rw [blocks]; exact passes.2), List.cons_append, List.cons_append]
        have alike : Lineage.isLoud ⟨others, node⟩ = Lineage.isLoud ⟨ancestors, head⟩ :=
          congrArg (!·) (Event.isSilent_congr behavior disabled)
        apply forall₂_filter_cons ⟨same, blocks, inside⟩ alike
        rw [List.filter_append, List.filter_append]
        exact List.rel_append below (behindInduction ancestors others blocks passing)
      · rcases stops blocks passing passes (head :: tail) (node :: rest) with ⟨none, noneOther⟩
        rw [none, noneOther]
        exact .nil

end

/-! ## Compilations side by side -/

/-- Related entries in the same places contribute the same. -/
theorem flatMap_eq_of_forall₂ {α γ δ : Type} {Related : α → γ → Prop} {found : α → List δ}
    {foundOther : γ → List δ} (same : ∀ item other, Related item other →
      foundOther other = found item) {items : List α} {others : List γ}
    (related : List.Forall₂ Related items others) :
    others.flatMap foundOther = items.flatMap found := by
  induction related with
  | nil => rfl
  | cons head _ induction =>
      rw [List.flatMap_cons, List.flatMap_cons, same _ _ head, induction]

/-- Entries that contribute nothing may be dropped. -/
theorem flatMap_filter_of_eq_nil {α γ : Type} {keeps : α → Bool} {found : α → List γ}
    (nothing : ∀ item, keeps item = false → found item = []) (items : List α) :
    (items.filter keeps).flatMap found = items.flatMap found := by
  induction items with
  | nil => rfl
  | cons head tail induction =>
      cases kept : keeps head with
      | true => rw [List.filter_cons_of_pos kept, List.flatMap_cons, List.flatMap_cons, induction]
      | false =>
          rw [List.filter_cons_of_neg (ne_true_of_eq_false kept), List.flatMap_cons,
            nothing head kept, induction, List.nil_append]

section

variable {context contextOther : PreprocessContext Builtin} {forest thinned : Forest Builtin}
  {population populationOther : Population}
  {calls : List (Preprocess.Call Builtin (PassState Builtin))} {working : Forest Builtin}
  {state : PassState Builtin} {MayGo : Node Builtin → Prop}
  {Stands : Event Builtin → Event Builtin → Prop}

namespace CompilingPass

/-- When the copies thin, so does what the pass leaves, and its links meet the same problems. -/
theorem follow (pass : CompilingPass context forest population calls working state)
    (faithful : Event.Faithful Stands) (silent : ∀ node, MayGo node → node.IsSilent)
    (thins : Forest.ThinsTo MayGo Stands (Forest.cloneRemembering forest population).1
      (Forest.cloneRemembering thinned populationOther).1)
    (along : PreprocessContext.GoesAlong MayGo Stands context contextOther) :
    ∃ callsOther workingOther stateOther,
      CompilingPass contextOther thinned populationOther callsOther workingOther stateOther ∧
      Forest.ThinsTo MayGo Stands working workingOther ∧
      List.Forall₂ (Preprocess.Call.Echoes Stands) (calls.filter Preprocess.Call.isLink)
        (callsOther.filter Preprocess.Call.isLink) := by
  rw [← List.drop_zero (l := (Forest.cloneRemembering forest population).1),
    ← List.drop_zero (l := (Forest.cloneRemembering thinned populationOther).1)] at thins
  have alongStates : PreprocessContext.GoesAlong MayGo Stands
      (⟨context, (Forest.cloneRemembering forest population).2⟩ : PassState Builtin).context
      (⟨contextOther, (Forest.cloneRemembering thinned populationOther).2⟩ :
        PassState Builtin).context := along
  rcases Traverses.followed pass faithful silent thins alongStates with
    ⟨callsOther, workingOther, stateOther, passOther, left, -, echoes⟩
  exact ⟨callsOther, workingOther, stateOther, passOther, left, echoes⟩

/-- Only links have problems in a pass, and only events that are not silent when code is
generated. -/
theorem diagnostics_loud (pass : CompilingPass context forest population calls working state)
    (settings : Settings) :
    (codeOf settings working state).diagnostics =
      context.diagnostics ++
        (calls.filter Preprocess.Call.isLink).flatMap Preprocess.Call.problems ++
        ((Program.reachedLineages settings [] working).filter Lineage.isLoud).flatMap
          (Lineage.problems settings state.population) := by
  rw [pass.diagnostics_codeOf settings, flatMap_filter_of_eq_nil, flatMap_filter_of_eq_nil]
  · intro lineage quiet
    have silent : lineage.node.event.isSilent = true := Bool.not_eq_eq_eq_not.mp quiet
    rcases Event.generatesSubEvents_of_isSilent silent with ⟨stops, clean⟩
    simp [Lineage.problems, Lineage.reports, stops, clean, Diagnostic.allAttributed]
  · intro call noLink
    rw [Preprocess.Call.problems, Preprocess.Call.reports,
      Option.not_isSome_iff_eq_none.mp (ne_true_of_eq_false noLink)]
    rfl

end CompilingPass

end

end EventSheet
