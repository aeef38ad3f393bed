import EventSheet.Proofs.Compilation.Effects
import EventSheet.Proofs.Compilation.ProgramLines
import Mathlib.Algebra.Ring.Nat
namespace EventSheet

/-! # What the nesting limit leaves out

A forest that lies in too many blocks is left out with everything below it, and one error on the
event that owns it says how many events that are. No forest is left out without an error, so where
there is none a higher limit makes no difference. -/

open Codegen

/-! ## Errors of the limit -/

namespace Diagnostic

/-- The error says that events are nested deeper than the limit. -/
def isNestingError (limit : Nat) (diagnostic : Diagnostic) : Bool :=
  diagnostic.isError &&
    (" events nested deeper than " ++ Nat.repr limit ++
      " levels were not compiled").toList.isSuffixOf diagnostic.message.toList

theorem isNestingError_nestedTooDeeply (count limit : Nat) (node : Option NodeId) :
    isNestingError limit { Program.nestedTooDeeply count limit with node } = true := by
  simp [isNestingError, Program.nestedTooDeeply, isError, String.toList_append]

/-- A flaw of an event is not put down to its nesting. -/
theorem not_isNestingError_of_flaw {report : Diagnostic} (flaw : Event.Flaw report) (limit : Nat)
    (node : Option NodeId) : isNestingError limit { report with node } = false := by
  cases flaw with
  | nameless =>
      apply eq_false_of_ne_true
      intro isNesting
      rcases List.isSuffixOf_iff_suffix.mp (Bool.and_eq_true_iff.mp isNesting).2 with
        ⟨front, whole⟩
      -- the two messages end in different letters
      have last := congrArg List.getLast? whole
      have ends : " levels were not compiled".toList.getLast? = some 'd' := by decide
      rw [String.toList_append, ← List.append_assoc, List.getLast?_append, ends] at last
      change some 'd' = "instruction without a name".toList.getLast? at last
      exact absurd last (by decide)
  | emptyParameter position name => rfl
  | uncounted => rfl

end Diagnostic

/-! ## Who owns what is left out -/

namespace Lineage

/-- The node generates its sub-events, and there are some, but in too many blocks. -/
def leavesOut (settings : Settings) (lineage : Lineage Kind.Builtin) : Bool :=
  lineage.node.event.generatesSubEvents && !lineage.node.subEvents.isEmpty &&
    decide (settings.limits.maxNestingDepth.toNat <
      Event.blocks (lineage.node.event :: lineage.ancestors))

/-- What a watch makes of the forest below a node, in terms of who leaves it out. -/
theorem leftOutBelow_eq {ρ : Type} (watch : Program.Watch Kind.Builtin ρ) (settings : Settings)
    (lineage : Lineage Kind.Builtin) :
    (if lineage.node.event.generatesSubEvents then
        watch.leftOutAt settings (Event.blocks (lineage.node.event :: lineage.ancestors))
          lineage.node.subEvents
      else []) =
      if lineage.leavesOut settings then watch.leftOut lineage.node.subEvents else [] := by
  rw [leavesOut, Program.Watch.leftOutAt]
  cases lineage.node.event.generatesSubEvents with
  | false => rfl
  | true =>
      cases lineage.node.subEvents with
      | nil => rfl
      | cons head tail => simp

/-- The error on the owner of a forest that is left out. -/
def nestingError (settings : Settings) (population : Population)
    (owner : Lineage Kind.Builtin) : Diagnostic :=
  { Program.nestedTooDeeply (Forest.count owner.node.subEvents)
      settings.limits.maxNestingDepth.toNat with
    node := some (owner.node.event.sourceId population) }

theorem problems_eq (settings : Settings) (population : Population)
    (lineage : Lineage Kind.Builtin) :
    lineage.problems settings population =
      Diagnostic.allAttributed (some (lineage.node.event.sourceId population))
          lineage.node.event.reports ++
        if lineage.leavesOut settings then [lineage.nestingError settings population] else [] := by
  have below := leftOutBelow_eq
    { leftOut := fun forest => [Program.nestedTooDeeply (Forest.count forest)
        settings.limits.maxNestingDepth.toNat] } settings lineage
  have reports : lineage.reports settings = lineage.node.event.reports ++ _ :=
    congrArg (lineage.node.event.reports ++ ·) below
  rw [problems, reports, Diagnostic.allAttributed_append]
  split <;> rfl

/-- Among the problems of a node only that one is an error of the limit. -/
theorem filter_problems (settings : Settings) (population : Population)
    (lineage : Lineage Kind.Builtin) :
    (lineage.problems settings population).filter
        (Diagnostic.isNestingError settings.limits.maxNestingDepth.toNat) =
      if lineage.leavesOut settings then [lineage.nestingError settings population] else [] := by
  have own : (Diagnostic.allAttributed (some (lineage.node.event.sourceId population))
      lineage.node.event.reports).filter
        (Diagnostic.isNestingError settings.limits.maxNestingDepth.toNat) = [] := by
    rw [List.filter_eq_nil_iff]
    intro problem isProblem
    rcases List.mem_map.mp isProblem with ⟨report, isReport, rfl⟩
    have flaw := lineage.node.event.flaw_of_mem_reports isReport
    exact ne_true_of_eq_false (Diagnostic.not_isNestingError_of_flaw flaw _ _)
  rw [problems_eq, List.filter_append, own, List.nil_append]
  split
  · exact List.filter_cons_of_pos (Diagnostic.isNestingError_nestedTooDeeply _ _ _)
  · rfl

end Lineage

namespace Codegen.Program

/-- The nodes that own a forest that is left out. -/
def owners (settings : Settings) (forest : Forest Kind.Builtin) : List (Lineage Kind.Builtin) :=
  (reachedLineages settings [] forest).filter (Lineage.leavesOut settings)

/-- Keeps the forests that are left out. -/
def forestsLeftOut : Watch Kind.Builtin (Forest Kind.Builtin) where
  leftOut := fun forest => [forest]

/-- The sub-events code generation was asked for and left out, in order. -/
def leftOutForests (settings : Settings) (population : Population)
    (forest : Forest Kind.Builtin) (state : ProgramState) : List (Forest Kind.Builtin) :=
  (Forest.generate (watcher forestsLeftOut settings population) forest
    { generator := (state, []) }).2.generator.2

theorem flatMap_if {α γ : Type} (holds : α → Bool) (found : α → γ) (items : List α) :
    (items.flatMap fun item => if holds item then [found item] else []) =
      (items.filter holds).map found := by
  induction items with
  | nil => rfl
  | cons head tail induction =>
      rw [List.flatMap_cons, induction, List.filter_cons]
      split <;> rfl

theorem leftOutForests_eq (settings : Settings) (population : Population)
    (forest : Forest Kind.Builtin) (state : ProgramState) :
    leftOutForests settings population forest state =
      (owners settings forest).map fun owner => owner.node.subEvents := by
  have below : Lineage.entries forestsLeftOut settings = fun lineage =>
      if lineage.leavesOut settings then [lineage.node.subEvents] else [] :=
    funext fun lineage => lineage.leftOutBelow_eq forestsLeftOut settings
  rw [leftOutForests, Forest.generate_watcher]
  exact (congrArg (fun entries => (reachedLineages settings [] forest).flatMap entries)
    below).trans (flatMap_if _ _ _)

end Codegen.Program

/-! ## Higher limits -/

/-- The same settings with another limit. -/
def Settings.nestingUpTo (limit : UInt64) (settings : Settings) : Settings :=
  { settings with limits := { settings.limits with maxNestingDepth := limit } }

section

variable {settings : Settings} {population : Population} {higher : UInt64}

/-- Whoever leaves nothing out leaves nothing out under a higher limit. -/
theorem Lineage.not_leavesOut_of_le (reaches : settings.limits.maxNestingDepth ≤ higher)
    {lineage : Lineage Kind.Builtin} (none : lineage.leavesOut settings = false) :
    lineage.leavesOut (settings.nestingUpTo higher) = false := by
  have lower : settings.limits.maxNestingDepth.toNat ≤ higher.toNat := reaches
  rw [leavesOut, Bool.and_eq_false_iff] at none ⊢
  refine none.imp_right fun within => ?_
  rw [decide_eq_false_iff_not, Nat.not_lt] at within ⊢
  exact Nat.le_trans within lower

/-- What compiles below a node, and who is reached there, when the node does not leave it out. -/
structure SameBelow (settings : Settings) (population : Population) (higher : UInt64)
    (ancestors : List (Event Kind.Builtin)) (forest : List (Node Kind.Builtin)) : Prop where
  reached : Program.reachedLineages (settings.nestingUpTo higher) ancestors forest =
    Program.reachedLineages settings ancestors forest
  programs : Naming.within higher.toNat (Event.blocks ancestors)
      (Forest.programs (settings.nestingUpTo higher) population (Event.blocks ancestors) forest) =
    Naming.within settings.limits.maxNestingDepth.toNat (Event.blocks ancestors)
      (Forest.programs settings population (Event.blocks ancestors) forest)

theorem Node.program_nestingUpTo {ancestors : List (Event Kind.Builtin)} {node : Node Kind.Builtin}
    (same : node.event.generatesSubEvents = true →
      SameBelow settings population higher (node.event :: ancestors) node.subEvents) :
    node.program (settings.nestingUpTo higher) population (Event.blocks ancestors) =
      node.program settings population (Event.blocks ancestors) := by
  rcases node with ⟨⟨id, behavior, disabled, folded, remembered⟩, subEvents⟩
  rw [program, program]
  cases disabled with
  | true => rfl
  | false =>
      cases behavior with
      | standard standard =>
          have below := (same rfl).programs
          rw [Event.blocks_cons] at below
          exact congrArg standard.program below
      | branch branch => rfl
      | repetition repetition =>
          cases uncounted : repetition.count.isEmpty with
          | true => simp [Kind.Repetition.program, uncounted]
          | false =>
              have below := (same (congrArg (!·) uncounted)).programs
              rw [Event.blocks_cons] at below
              exact congrArg repetition.program below
      | comment _ => rfl
      | link _ => rfl

mutual
theorem Node.sameBelow (reaches : settings.limits.maxNestingDepth ≤ higher) :
    ∀ (node : Node Kind.Builtin) (ancestors : List (Event Kind.Builtin)),
      ancestors.all Event.generatesSubEvents = true →
      Lineage.leavesOut settings ⟨ancestors, node⟩ = false →
      (∀ lineage ∈ Program.reachedLineages settings (node.event :: ancestors) node.subEvents,
        lineage.leavesOut settings = false) →
      node.event.generatesSubEvents = true →
      SameBelow settings population higher (node.event :: ancestors) node.subEvents
  | ⟨event, []⟩, ancestors, _, _, _, _ => by
      refine ⟨rfl, ?_⟩
      rw [Naming.within, Naming.within, Forest.programs, Forest.programs, ite_self, ite_self]
  | ⟨event, head :: tail⟩, ancestors, passed, keeps, below, passes => by
      have passedAll : (event :: ancestors).all Event.generatesSubEvents = true :=
        Bool.and_eq_true_iff.mpr ⟨passes, passed⟩
      have within : Event.blocks (event :: ancestors) ≤
          settings.limits.maxNestingDepth.toNat := by
        simpa [Lineage.leavesOut, passes] using keeps
      exact Forest.sameBelow reaches (head :: tail) (event :: ancestors) passedAll within below

/-- Where nothing is left out, a higher limit reaches the same nodes and compiles the same. -/
theorem Forest.sameBelow (reaches : settings.limits.maxNestingDepth ≤ higher) :
    ∀ (forest : List (Node Kind.Builtin)) (ancestors : List (Event Kind.Builtin)),
      ancestors.all Event.generatesSubEvents = true →
      Event.blocks ancestors ≤ settings.limits.maxNestingDepth.toNat →
      (∀ lineage ∈ Program.reachedLineages settings ancestors forest,
        lineage.leavesOut settings = false) →
      SameBelow settings population higher ancestors forest
  | [], ancestors, _, _, _ => by
      refine ⟨rfl, ?_⟩
      rw [Naming.within, Naming.within, Forest.programs, Forest.programs, ite_self, ite_self]
  | head :: tail, ancestors, passed, within, keeps => by
      have lower : settings.limits.maxNestingDepth.toNat ≤ higher.toNat := reaches
      have withinHigher := Nat.le_trans within lower
      rw [Program.reachedLineages_cons passed within, List.cons_append, List.forall_mem_cons,
        List.forall_mem_append] at keeps
      rcases keeps with ⟨ofHead, ofBelow, ofTail⟩
      have below := Node.sameBelow reaches head ancestors passed ofHead ofBelow
      have behind := Forest.sameBelow reaches tail ancestors passed within ofTail
      have reachedBelow : Program.reachedLineages (settings.nestingUpTo higher)
          (head.event :: ancestors) head.subEvents =
            Program.reachedLineages settings (head.event :: ancestors) head.subEvents := by
        cases passes : head.event.generatesSubEvents with
        | true => exact (below passes).reached
        | false =>
            rw [Program.reachedLineages_below_eq_nil passes,
              Program.reachedLineages_below_eq_nil passes]
      constructor
      · rw [Program.reachedLineages_cons passed withinHigher,
          Program.reachedLineages_cons passed within, reachedBelow, behind.reached]
      · have programs := behind.programs
        rw [Naming.within, Naming.within, if_neg (Nat.not_lt_of_le withinHigher),
          if_neg (Nat.not_lt_of_le within)] at programs ⊢
        rw [Forest.programs, Forest.programs, Node.program_nestingUpTo below, programs]
        rfl
end

end

namespace Codegen.Program

/-- Where no forest is left out, a higher limit makes no difference. -/
theorem generate_nestingUpTo {settings : Settings} {higher : UInt64}
    (reaches : settings.limits.maxNestingDepth ≤ higher) {forest : Forest Kind.Builtin}
    (none : owners settings forest = []) (population : Population) (state : ProgramState) :
    generate (settings.nestingUpTo higher) population forest state =
      generate settings population forest state := by
  have keeps : ∀ lineage ∈ reachedLineages settings [] forest,
      lineage.leavesOut settings = false := by
    intro lineage isReached
    exact eq_false_of_ne_true (List.filter_eq_nil_iff.mp none lineage isReached)
  have same : SameBelow settings population higher [] forest :=
    Forest.sameBelow reaches forest [] rfl (Nat.zero_le _) keeps
  apply Prod.ext
  · have programs : Forest.program (settings.nestingUpTo higher) population forest =
        Forest.program settings population forest :=
      congrArg (fun naming : Naming BlockProgram => (naming {}).1) same.programs
    rw [generate_eq_layout, generate_eq_layout, programs]
    rfl
  · have problems : ∀ lineage ∈ reachedLineages settings [] forest,
        lineage.problems (settings.nestingUpTo higher) population =
          lineage.problems settings population := by
      intro lineage isReached
      have none := keeps lineage isReached
      rw [Lineage.problems_eq, Lineage.problems_eq, none, Lineage.not_leavesOut_of_le reaches none]
      rfl
    have after (settings : Settings) : (generate settings population forest state).2 = _ :=
      (Forest.generate_leaves settings population forest state).2
    rw [after, after, same.reached, List.flatMap_congr problems]

/-- The errors of the limit, among the problems of the nodes reached. -/
theorem filter_flatMap_problems (settings : Settings) (population : Population)
    (lineages : List (Lineage Kind.Builtin)) :
    (lineages.flatMap (Lineage.problems settings population)).filter
        (Diagnostic.isNestingError settings.limits.maxNestingDepth.toNat) =
      (lineages.filter (Lineage.leavesOut settings)).map
        (Lineage.nestingError settings population) := by
  rw [List.filter_flatMap, ← flatMap_if]
  exact List.flatMap_congr fun lineage _ => lineage.filter_problems settings population

theorem count_flatten (forests : List (Forest Kind.Builtin)) :
    Forest.count forests.flatten = (forests.map Forest.count).sum := by
  induction forests with
  | nil => rfl
  | cons head tail induction =>
      rw [List.flatten_cons, Forest.count_append, induction, List.map_cons, List.sum_cons]

/-- The nesting limit leaves nothing out silently. The sub-events that code generation is asked for
and leaves out are those of the owners, which are different nodes of the forest, in order. Each
owner gets one error of the limit, put down to the event it stands for, and there are no others.
The error names how many events are below the owner, so that all together name how many events
are in the forests left out. When there is no such error, the source and all problems are the
same under every higher limit. Watching for the forests left out changes neither the text nor the
state of the generator. -/
theorem generate_leavesOut (settings : Settings) (population : Population)
    (forest : Forest Kind.Builtin) (state : ProgramState) :
    (owners settings forest).Sublist (Forest.lineages [] forest) ∧
      leftOutForests settings population forest state =
        (owners settings forest).map (fun owner => owner.node.subEvents) ∧
      ((owners settings forest).map fun owner => Forest.count owner.node.subEvents).sum =
        Forest.count (leftOutForests settings population forest state).flatten ∧
      ∃ raised,
        (generate settings population forest state).2.diagnostics = state.diagnostics ++ raised ∧
        raised.filter (Diagnostic.isNestingError settings.limits.maxNestingDepth.toNat) =
          (owners settings forest).map (fun owner =>
            { nestedTooDeeply (Forest.count owner.node.subEvents)
                settings.limits.maxNestingDepth.toNat with
              node := some (owner.node.event.sourceId population) }) ∧
        ((∀ problem ∈ raised,
            problem.isNestingError settings.limits.maxNestingDepth.toNat = false) →
          ∀ higher, settings.limits.maxNestingDepth ≤ higher →
            generate (settings.nestingUpTo higher) population forest state =
              generate settings population forest state) ∧
        ∃ after,
          Forest.generate (watcher forestsLeftOut settings population) forest
              { generator := (state, []) } =
            ((Forest.generate (generator settings population) forest { generator := state }).1,
              after) ∧
          after.generator.1 = (generate settings population forest state).2 := by
  have forests := leftOutForests_eq settings population forest state
  have errors := filter_flatMap_problems settings population (reachedLineages settings [] forest)
  refine ⟨?_, forests, ?_, (reachedLineages settings [] forest).flatMap
    (Lineage.problems settings population), ?_, errors, ?_, ?_⟩
  · exact List.filter_sublist.trans List.filter_sublist
  · rw [forests, count_flatten, List.map_map]
    rfl
  · exact congrArg ProgramState.diagnostics
      (Forest.generate_leaves settings population forest state).2
  · intro clean higher reaches
    rw [List.filter_eq_nil_iff.mpr fun problem isOne => ne_true_of_eq_false (clean problem isOne)]
      at errors
    exact generate_nestingUpTo reaches (List.map_eq_nil_iff.mp errors.symm) population state
  · exact ⟨_, Forest.generate_watcher forestsLeftOut settings population forest state, rfl⟩

end Codegen.Program

end EventSheet
