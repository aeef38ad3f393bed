import EventSheet.Proofs.Compilation.LeftOut
import EventSheet.Proofs.Compilation.Thinning
import EventSheet.Proofs.Snapshot.RoundTrip
namespace EventSheet

/-! # Events that contribute nothing

Disabled events with all below them, and comments, may be deleted without changing a letter of the
source. What is reported is the same as well, but for one thing: the error of the nesting limit
counts all events of the forest it leaves out, and it counts disabled ones too. -/

open Codegen

/-! ## Deleting events -/

section

variable {β : Type}

mutual
def Node.without (gone : Event β → Bool) : Node β → List (Node β)
  | ⟨event, subEvents⟩ =>
      if gone event then [] else [⟨event, Forest.without gone subEvents⟩]

/-- The forest without the events that are gone, and without all that is below them. -/
def Forest.without (gone : Event β → Bool) : List (Node β) → List (Node β)
  | [] => []
  | head :: tail => head.without gone ++ Forest.without gone tail
end

mutual
theorem Node.thins_without (gone : Event β → Bool) : ∀ node : Node β,
    Forest.ThinsTo (fun node => gone node.event = true) Eq [node] (node.without gone)
  | ⟨event, subEvents⟩ => by
      rw [Node.without]
      split
      · next isGone => exact .drop isGone .nil
      · exact .keep rfl (Forest.thins_without gone subEvents) .nil

theorem Forest.thins_without (gone : Event β → Bool) : ∀ forest : List (Node β),
    Forest.ThinsTo (fun node => gone node.event = true) Eq forest (Forest.without gone forest)
  | [] => .nil
  | head :: tail => (Node.thins_without gone head).append (Forest.thins_without gone tail)
end

theorem Forest.thins_refl {MayGo : Node β → Prop} {Stands : Event β → Event β → Prop}
    (refl : ∀ event, Stands event event) :
    ∀ forest : List (Node β), Forest.ThinsTo MayGo Stands forest forest
  | [] => .nil
  | ⟨event, subEvents⟩ :: tail =>
      .keep (refl event) (Forest.thins_refl refl subEvents) (Forest.thins_refl refl tail)

/-- What goes from a forest of owned sub-events has owned sub-events. -/
theorem Forest.ThinsTo.owned [EventKind β] {MayGo : Node β → Prop}
    {Stands : Event β → Event β → Prop} {forest thinned : Forest β}
    (thins : ThinsTo MayGo Stands forest thinned) (owned : Forest.Owned forest) :
    ThinsTo (fun node => MayGo node ∧ node.Owned) Stands forest thinned := by
  induction thins with
  | nil => exact .nil
  | drop mayGo _ induction => exact .drop ⟨mayGo, owned.1⟩ (induction owned.2)
  | @keep head _ _ _ same _ _ insideInduction behindInduction =>
      have below := (head.owned_iff.mp owned.1).2
      exact .keep same (insideInduction below) (behindInduction owned.2)

/-! ## Twins -/

/-- The event is the other one under an id of its own. -/
def Event.IsTwinOf (event other : Event β) : Prop := event = { other with id := event.id }

namespace Event.IsTwinOf

variable {event other : Event β}

theorem remembered_eq (twin : event.IsTwinOf other) : event.remembered = other.remembered :=
  (congrArg Event.remembered twin).trans rfl

/-- Two copies of one event are twins. -/
theorem of_copies {source : Event β} (copies : event.IsCopyOf source)
    (otherCopies : other.IsCopyOf source) : event.IsTwinOf other := by
  rw [IsTwinOf, otherCopies]
  exact copies

end Event.IsTwinOf

theorem Event.faithful_isTwinOf :
    Faithful (fun event other : Event β => other.IsTwinOf event) := by
  intro event other twin
  exact ⟨(congrArg Event.behavior twin).trans rfl, (congrArg Event.disabled twin).trans rfl⟩

/-- Copies of a forest and of what is left of it are twins. -/
theorem Forest.ThinsTo.copy_twins {MayGo Departs : Node β → Prop} {forest thinned : Forest β}
    (thins : ThinsTo MayGo Eq forest thinned)
    (departs : ∀ node population, MayGo node → Departs (node.copy Event.itself population).1) :
    ∀ population populationRest, ThinsTo Departs (fun event other => other.IsTwinOf event)
      (cloneRemembering forest population).1 (cloneRemembering thinned populationRest).1 := by
  apply thins.copy departs
  rintro event other copied copiedOther rfl copies copiesOther
  exact .of_copies copiesOther copies

end

open Kind (Builtin)

/-- With the same sheets two passes copy twins. -/
theorem PreprocessContext.goesAlong_self (MayGo : Node Builtin → Prop)
    (context : PreprocessContext Builtin) :
    GoesAlong MayGo (fun event other => other.IsTwinOf event) context context where
  expansions := rfl
  limit := rfl
  sheets := by
    intro target
    cases context.external? target with
    | none => exact .none
    | some sheet =>
        have same : Forest.ThinsTo (fun _ => False) Eq sheet sheet :=
          Forest.thins_refl (fun _ => rfl) sheet
        exact .some (same.copy_twins fun _ _ none => none.elim)

section

variable {context : PreprocessContext Builtin} {forest : Forest Builtin}
  {population populationRest : Population}

/-- While its original exists, a copy remembers whom it stands for. -/
theorem CompilingPass.remembers {calls : List (Preprocess.Call Builtin (PassState Builtin))}
    {working : Forest Builtin} {state : PassState Builtin}
    (pass : CompilingPass context forest population calls working state)
    (alive : ∀ event ∈ compiledEvents context forest, population.isAlive event.id = true) :
    (∀ event ∈ Forest.members working,
      event.remembered = some (event.sourceId state.population)) ∧
    ∀ call ∈ calls, call.event.remembered = some (call.event.sourceId call.state.population) := by
  rcases pass.copies with ⟨ends, spares, asked⟩
  constructor
  · intro event isMember
    rcases (ends event isMember).standsFor spares alive with ⟨source, -, isCopy, stands⟩
    rw [isCopy.remembered_eq, stands]
  · intro call isCall
    rcases (asked call isCall).1.standsFor (asked call isCall).2 alive with
      ⟨source, -, isCopy, stands⟩
    rw [isCopy.remembered_eq, stands]

/-! ## The source -/

theorem Node.isSilent_of_owned {node : Node Builtin} (silent : node.event.isSilent = true)
    (owned : node.Owned) : node.IsSilent := by
  refine ⟨silent, (Event.cases_of_isSilent silent).imp_right ?_⟩
  rintro ⟨comment, kind⟩
  apply (node.owned_iff.mp owned).1
  rw [ownsSubEvents, behavior, kind]
  rfl

theorem Node.IsSilent.copy {node : Node Builtin} (silent : node.IsSilent)
    (population : Population) : (node.copy Event.itself population).1.IsSilent := by
  rcases node with ⟨event, subEvents⟩
  refine ⟨silent.event, silent.below.imp_right fun none => ?_⟩
  rw [show subEvents = [] from none]
  rfl

/-- Deleting every disabled event with all below it, and every comment, leaves the source as it
is, with or without hooks and under any limit. -/
theorem compileEvents_source_without_silent (owned : Forest.Owned forest)
    (alive : ∀ event ∈ compiledEvents context forest, population.isAlive event.id = true)
    (aliveRest : ∀ event ∈ compiledEvents context (Forest.without Event.isSilent forest),
      populationRest.isAlive event.id = true) (settings : Settings) :
    ∃ code rest, Compiles settings context forest population code ∧
      Compiles settings context (Forest.without Event.isSilent forest) populationRest rest ∧
      rest.source = code.source := by
  rcases exists_compilingPass context forest population with ⟨calls, working, state, pass, -⟩
  have thins := ((Forest.thins_without Event.isSilent forest).owned owned).copy_twins
    (fun node population mayGo => (Node.isSilent_of_owned mayGo.1 mayGo.2).copy population)
    population populationRest
  rcases pass.follow Event.faithful_isTwinOf (fun _ silent => silent) thins
      (context.goesAlong_self Node.IsSilent) with
    ⟨callsRest, workingRest, stateRest, passRest, left, -⟩
  refine ⟨_, _, pass.compiles settings, passRest.compiles settings, ?_⟩
  have remembered := (pass.remembers alive).1
  have rememberedRest := (passRest.remembers aliveRest).1
  have named : Forest.ThinsTo Node.IsSilent (fun event other => other.IsTwinOf event ∧
      other.sourceId stateRest.population = event.sourceId state.population)
      working workingRest := by
    apply left.mono fun _ silent => silent
    intro event isMember other isOther twin
    refine ⟨twin, Option.some.inj ?_⟩
    rw [← rememberedRest other isOther, twin.remembered_eq, remembered event isMember]
  exact named.source_eq (fun event other same => Event.faithful_isTwinOf event other same.1)
    (fun _ silent => silent.event) (fun _ _ same _ => same.2)

end

/-- A single guard relieves the night watch. -/
def relieved : PreprocessContext Builtin :=
  { scope := "wall"
    externals :=
      [("relief",
        [{ event := { id := 12, behavior := .standard { actions := [{ name := "watch" }] } } }])] }

/-- The walk nobody takes and the comment are deleted and destroyed, and the source with its hooks
is the same. -/
theorem nightWatch_source_without_silent :
    Forest.ids (Forest.without Event.isSilent nightWatch) = [7, 9, 11] ∧
    ∃ code rest,
      Compiles { profiling := { emitHooks := true } } relieved nightWatch
        ⟨Array.replicate 12 {}⟩ code ∧
      Compiles { profiling := { emitHooks := true } } relieved
        (Forest.without Event.isSilent nightWatch)
        (Population.retireAll ⟨Array.replicate 12 {}⟩ [8, 10]) rest ∧
      rest.source = code.source := by
  refine ⟨by decide, compileEvents_source_without_silent owned_nightWatch ?_ ?_ _⟩
  · decide
  · decide

section

variable {settings : Settings} {reports others : List Diagnostic}

/-! ## What is reported -/

/-- The second list is the first, but that an error of the nesting limit counts what is left of the
forest it is about when disabled trees were taken out, and is missing when nothing is left. -/
inductive Recounts (settings : Settings) : List Diagnostic → List Diagnostic → Prop
  | nil : Recounts settings [] []
  | same (report : Diagnostic) {reports others : List Diagnostic}
      (behind : Recounts settings reports others) :
      Recounts settings (report :: reports) (report :: others)
  | leftOut (owner : Option NodeId) (depth : Nat) {forest thinned : Forest Builtin}
      (thins : Forest.ThinsTo (fun node => node.event.disabled = true)
        (fun event other => other.IsTwinOf event) forest thinned)
      {reports others : List Diagnostic} (behind : Recounts settings reports others) :
      Recounts settings
        (Diagnostic.allAttributed owner (Program.leftOut settings depth forest) ++ reports)
        (Diagnostic.allAttributed owner (Program.leftOut settings depth thinned) ++ others)

/-- The problem of a call, put down to whom the copy remembers. -/
def Preprocess.Call.recalled (call : Preprocess.Call Builtin (PassState Builtin)) :
    List Diagnostic :=
  Diagnostic.allAttributed call.event.remembered call.reports

/-- The problems of a node, put down to whom the copy remembers. -/
def Lineage.recalled (settings : Settings) (lineage : Lineage Builtin) : List Diagnostic :=
  Diagnostic.allAttributed lineage.node.event.remembered (lineage.reports settings)

namespace Recounts

theorem prepend (front : List Diagnostic) (recounts : Recounts settings reports others) :
    Recounts settings (front ++ reports) (front ++ others) := by
  induction front with
  | nil => exact recounts
  | cons head _ induction => exact .same head induction

/-- Of a forest nothing is said, or one error of the limit. -/
theorem leftOut_cases (settings : Settings) (depth : Nat) (forest : Forest Builtin) :
    Program.leftOut settings depth forest = [] ∨
      Program.leftOut settings depth forest =
        [Program.nestedTooDeeply (Forest.count forest)
          settings.limits.maxNestingDepth.toNat] := by
  rw [Program.leftOut]
  split
  · exact .inl rfl
  · split
    · exact .inr rfl
    · exact .inl rfl

theorem isNestingError_of_leftOut {owner : Option NodeId} {depth : Nat} {forest : Forest Builtin}
    {problem : Diagnostic}
    (isProblem : problem ∈
      Diagnostic.allAttributed owner (Program.leftOut settings depth forest)) :
    problem.isNestingError settings.limits.maxNestingDepth.toNat = true := by
  rcases leftOut_cases settings depth forest with said | said
  · rw [said] at isProblem
    cases isProblem
  · rw [said] at isProblem
    cases List.mem_singleton.mp isProblem
    exact Diagnostic.isNestingError_nestedTooDeeply _ _ _

/-- When nothing is said of a forest, nothing is said of what is left of it. -/
theorem leftOut_eq_nil {depth : Nat} {forest thinned : Forest Builtin}
    {MayGo : Node Builtin → Prop} {Stands : Event Builtin → Event Builtin → Prop}
    (thins : Forest.ThinsTo MayGo Stands forest thinned)
    (none : Program.leftOut settings depth forest = []) :
    Program.leftOut settings depth thinned = [] := by
  cases forest with
  | nil =>
      rw [thins.eq_nil]
      rfl
  | cons head tail =>
      have within : ¬ settings.limits.maxNestingDepth.toNat < depth := by
        intro tooDeep
        simp [Program.leftOut, tooDeep] at none
      rw [Program.leftOut, if_neg within, ite_self]

/-- The problems that are no errors of the limit are the same. -/
theorem filter_eq (recounts : Recounts settings reports others) :
    others.filter (fun problem =>
        !problem.isNestingError settings.limits.maxNestingDepth.toNat) =
      reports.filter (fun problem =>
        !problem.isNestingError settings.limits.maxNestingDepth.toNat) := by
  have dropped (owner : Option NodeId) (depth : Nat) (forest : Forest Builtin) :
      (Diagnostic.allAttributed owner (Program.leftOut settings depth forest)).filter
        (fun problem => !problem.isNestingError settings.limits.maxNestingDepth.toNat) = [] := by
    rw [List.filter_eq_nil_iff]
    intro problem isProblem
    rw [isNestingError_of_leftOut isProblem]
    exact Bool.false_ne_true
  induction recounts with
  | nil => rfl
  | same report _ induction => rw [List.filter_cons, List.filter_cons, induction]
  | leftOut owner depth _ _ induction =>
      rw [List.filter_append, List.filter_append, dropped, dropped, induction]

/-- Without errors of the limit nothing is counted. -/
theorem eq_of_clean (recounts : Recounts settings reports others)
    (clean : ∀ problem ∈ reports,
      problem.isNestingError settings.limits.maxNestingDepth.toNat = false) :
    others = reports := by
  induction recounts with
  | nil => rfl
  | same report _ induction =>
      rw [induction fun problem isProblem => clean problem (List.mem_cons_of_mem _ isProblem)]
  | @leftOut owner depth forest thinned thins _ _ _ induction =>
      have none : Diagnostic.allAttributed owner (Program.leftOut settings depth forest) = [] := by
        rw [List.eq_nil_iff_forall_not_mem]
        intro problem isProblem
        have contrary := clean problem (List.mem_append_left _ isProblem)
        rw [isNestingError_of_leftOut isProblem] at contrary
        cases contrary
      rw [none, leftOut_eq_nil thins (List.map_eq_nil_iff.mp none),
        induction fun problem isProblem => clean problem (List.mem_append_right _ isProblem)]
      rfl

theorem any_isError (recounts : Recounts settings reports others)
    (errors : others.any Diagnostic.isError = true) : reports.any Diagnostic.isError = true := by
  induction recounts with
  | nil => exact errors
  | same report _ induction =>
      rw [List.any_cons, Bool.or_eq_true] at errors ⊢
      exact errors.imp_right induction
  | @leftOut owner depth forest thinned thins _ _ _ induction =>
      rw [List.any_append, Bool.or_eq_true] at errors ⊢
      rcases errors with ofThinned | behind
      · rcases leftOut_cases settings depth forest with said | said
        · rw [leftOut_eq_nil thins said] at ofThinned
          cases ofThinned
        · rw [said]
          exact .inl rfl
      · exact .inr (induction behind)

/-- Node by node, what is said of thinned sub-events is recounted. -/
theorem of_echoes {lineages others : List (Lineage Builtin)}
    (echoes : List.Forall₂ (Lineage.Echoes (fun node => node.event.disabled = true)
      (fun event other => other.IsTwinOf event)) lineages others) :
    Recounts settings (lineages.flatMap (Lineage.recalled settings))
      (others.flatMap (Lineage.recalled settings)) := by
  induction echoes with
  | nil => exact .nil
  | @cons lineage other _ _ echo _ induction =>
      rcases Event.faithful_isTwinOf _ _ echo.event with ⟨behavior, disabled⟩
      rw [List.flatMap_cons, List.flatMap_cons, Lineage.recalled, Lineage.recalled,
        echo.event.remembered_eq, Lineage.reports, Lineage.reports, Event.reports_congr behavior disabled,
        Event.generatesSubEvents_congr behavior disabled,
        Event.blocks_congr behavior echo.blocks, Diagnostic.allAttributed_append,
        Diagnostic.allAttributed_append, List.append_assoc, List.append_assoc]
      apply prepend
      split
      · exact .leftOut _ _ echo.below induction
      · exact induction

end Recounts

end

section

variable {context : PreprocessContext Builtin} {forest : Forest Builtin}
  {population populationRest : Population}

/-- Every problem is put down to whom the copy it was met at remembers. -/
theorem CompilingPass.diagnostics_recalled
    {calls : List (Preprocess.Call Builtin (PassState Builtin))} {working : Forest Builtin}
    {state : PassState Builtin}
    (pass : CompilingPass context forest population calls working state)
    (alive : ∀ event ∈ compiledEvents context forest, population.isAlive event.id = true)
    (settings : Settings) :
    (codeOf settings working state).diagnostics =
      context.diagnostics ++
        ((calls.filter Preprocess.Call.isLink).flatMap Preprocess.Call.recalled ++
          ((Program.reachedLineages settings [] working).filter Lineage.isLoud).flatMap
            (Lineage.recalled settings)) := by
  rcases pass.remembers alive with ⟨ofNodes, ofCalls⟩
  have sameCalls : ∀ call ∈ calls.filter Preprocess.Call.isLink,
      call.problems = call.recalled := by
    intro call isCall
    rw [Preprocess.Call.problems, Preprocess.Call.recalled,
      ← ofCalls call (List.mem_of_mem_filter isCall)]
  have sameNodes : ∀ lineage ∈
      (Program.reachedLineages settings [] working).filter Lineage.isLoud,
      lineage.problems settings state.population = lineage.recalled settings := by
    intro lineage isLoud
    have isLineage := List.mem_of_mem_filter (List.mem_of_mem_filter isLoud)
    rw [Lineage.problems, Lineage.recalled,
      ← ofNodes _ (Forest.mem_members_of_lineages isLineage)]
  rw [pass.diagnostics_loud settings, List.flatMap_congr sameCalls,
    List.flatMap_congr sameNodes, List.append_assoc]

/-- Without the disabled events the problems are recounted. -/
theorem exists_recounts
    (alive : ∀ event ∈ compiledEvents context forest, population.isAlive event.id = true)
    (aliveRest : ∀ event ∈ compiledEvents context (Forest.without Event.disabled forest),
      populationRest.isAlive event.id = true) (settings : Settings) :
    ∃ code rest raised raisedRest, Compiles settings context forest population code ∧
      Compiles settings context (Forest.without Event.disabled forest) populationRest rest ∧
      code.diagnostics = context.diagnostics ++ raised ∧
      rest.diagnostics = context.diagnostics ++ raisedRest ∧
      Recounts settings raised raisedRest := by
  rcases exists_compilingPass context forest population with ⟨calls, working, state, pass, -⟩
  let isDisabled (node : Node Builtin) : Prop := node.event.disabled = true
  have silent (node : Node Builtin) (disabled : isDisabled node) : node.IsSilent :=
    ⟨Bool.or_eq_true_iff.mpr (.inl disabled), .inl disabled⟩
  have ofCopy (node : Node Builtin) (population : Population) (disabled : isDisabled node) :
      isDisabled (node.copy Event.itself population).1 := by
    cases node
    exact disabled
  have thins := (Forest.thins_without Event.disabled forest).copy_twins ofCopy population
    populationRest
  rcases pass.follow Event.faithful_isTwinOf silent thins (context.goesAlong_self isDisabled) with
    ⟨callsRest, workingRest, stateRest, passRest, left, echoes⟩
  have sameCalls : (callsRest.filter Preprocess.Call.isLink).flatMap Preprocess.Call.recalled =
      (calls.filter Preprocess.Call.isLink).flatMap Preprocess.Call.recalled := by
    apply flatMap_eq_of_forall₂ _ echoes
    intro call other echo
    rw [Preprocess.Call.recalled, Preprocess.Call.recalled, echo.event.remembered_eq, echo.reports]
  have reached : List.Forall₂ _
      ((Program.reachedLineages settings [] working).filter Lineage.isLoud)
      ((Program.reachedLineages settings [] workingRest).filter Lineage.isLoud) :=
    left.reachedLineages Event.faithful_isTwinOf
      (fun node disabled => (silent node disabled).event) [] [] rfl rfl
  have foundRest := passRest.diagnostics_recalled aliveRest settings
  rw [sameCalls] at foundRest
  exact ⟨_, _, _, _, pass.compiles settings, passRest.compiles settings,
    pass.diagnostics_recalled alive settings, foundRest, (Recounts.of_echoes reached).prepend _⟩

/-- Deleting every disabled event with all below it changes the problems in one way only: an error
of the nesting limit no longer counts the disabled events of the forest it is about, and is missing
when there were no others. So nothing changes when no error of the limit is raised; all other
problems are the same in any case, and no error comes up that was not there. -/
theorem compileEvents_diagnostics_without_disabled
    (alive : ∀ event ∈ compiledEvents context forest, population.isAlive event.id = true)
    (aliveRest : ∀ event ∈ compiledEvents context (Forest.without Event.disabled forest),
      populationRest.isAlive event.id = true) (settings : Settings) :
    ∃ code rest raised raisedRest, Compiles settings context forest population code ∧
      Compiles settings context (Forest.without Event.disabled forest) populationRest rest ∧
      code.diagnostics = context.diagnostics ++ raised ∧
      rest.diagnostics = context.diagnostics ++ raisedRest ∧
      Recounts settings raised raisedRest ∧
      ((∀ problem ∈ raised,
          problem.isNestingError settings.limits.maxNestingDepth.toNat = false) →
        rest.diagnostics = code.diagnostics) ∧
      rest.diagnostics.filter (fun problem =>
          !problem.isNestingError settings.limits.maxNestingDepth.toNat) =
        code.diagnostics.filter (fun problem =>
          !problem.isNestingError settings.limits.maxNestingDepth.toNat) ∧
      (rest.hasErrors = true → code.hasErrors = true) := by
  rcases exists_recounts alive aliveRest settings with
    ⟨code, rest, raised, raisedRest, compiles, compilesRest, found, foundRest, recounts⟩
  refine ⟨code, rest, raised, raisedRest, compiles, compilesRest, found, foundRest, recounts,
    ?_, ?_, ?_⟩
  · intro clean
    rw [found, foundRest, recounts.eq_of_clean clean]
  · rw [found, foundRest, List.filter_append, List.filter_append, recounts.filter_eq]
  · rw [GeneratedCode.hasErrors, GeneratedCode.hasErrors, found, foundRest, List.any_append,
      List.any_append, Bool.or_eq_true, Bool.or_eq_true]
    exact Or.imp_right recounts.any_isError

end

/-- A guard on duty, with orders to be followed some other day. -/
def idleGuard : Forest Builtin :=
  [{ event := { id := 1, behavior := .standard { actions := [{ name := "stand" }] } }
     subEvents :=
       [{ event :=
          { id := 2, behavior := .standard { actions := [{ name := "walk" }] }
            disabled := true } }] }]

def onWall : PreprocessContext Builtin := { scope := "wall" }

/-- No levels of sub-events are compiled. -/
def flatOnly : Settings := { limits := { maxNestingDepth := 0 } }

theorem idleGuard_recounted :
    ∃ code rest raised raisedRest, Compiles flatOnly onWall idleGuard ⟨#[{}, {}]⟩ code ∧
      Compiles flatOnly onWall (Forest.without Event.disabled idleGuard)
        ⟨#[{}, { alive := false }]⟩ rest ∧
      code.diagnostics = onWall.diagnostics ++ raised ∧
      rest.diagnostics = onWall.diagnostics ++ raisedRest ∧
      Recounts flatOnly raised raisedRest := by
  have alive : ∀ event ∈ compiledEvents onWall idleGuard,
      Population.isAlive ⟨#[{}, {}]⟩ event.id = true := by
    decide
  have aliveRest : ∀ event ∈ compiledEvents onWall (Forest.without Event.disabled idleGuard),
      Population.isAlive ⟨#[{}, { alive := false }]⟩ event.id = true := by
    decide
  rcases compileEvents_diagnostics_without_disabled alive aliveRest flatOnly with
    ⟨code, rest, raised, raisedRest, compiles, compilesRest, found, foundRest, recounts, -⟩
  exact ⟨code, rest, raised, raisedRest, compiles, compilesRest, found, foundRest, recounts⟩

/-- The guard is said to leave an event out, an error that is gone with the disabled event. -/
theorem idleGuard_blamed :
    ¬ ∀ code rest : GeneratedCode,
      Compiles flatOnly onWall idleGuard ⟨#[{}, {}]⟩ code →
      Compiles flatOnly onWall (Forest.without Event.disabled idleGuard)
        ⟨#[{}, { alive := false }]⟩ rest →
      rest.diagnostics = code.diagnostics ∧ rest.hasErrors = code.hasErrors := by
  intro unchanged
  have blamed : (compileEvents 9 flatOnly onWall idleGuard ⟨#[{}, {}]⟩).map
      (fun outcome => outcome.1.diagnostics) =
        some [{ Codegen.Program.nestedTooDeeply 1 0 with node := some 1 }] := by
    decide +kernel
  have cleared : (compileEvents 9 flatOnly onWall (Forest.without Event.disabled idleGuard)
      ⟨#[{}, { alive := false }]⟩).map (fun outcome => outcome.1.diagnostics) = some [] := by
    decide +kernel
  rcases Option.map_eq_some_iff.mp blamed with ⟨⟨code, _⟩, ends, found⟩
  rcases Option.map_eq_some_iff.mp cleared with ⟨⟨rest, _⟩, endsRest, foundRest⟩
  have same := (unchanged code rest (.of_eq ends) (.of_eq endsRest)).1
  rw [found, foundRest] at same
  cases same

end EventSheet
