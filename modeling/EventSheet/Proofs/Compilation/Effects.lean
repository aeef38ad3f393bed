import EventSheet.Proofs.Compilation.Reach
namespace EventSheet

/-! # What generating leaves behind

Besides the text, generating a forest leaves names in the scope of its block and problems with the
generator. A name that was just numbered is nowhere in sight, so declaring it always adds it; and
the generator ends with the event it began with, so whatever follows is put down to the right
event. -/

open Codegen

/-! ## Names in sight -/

theorem SharedScope.flag_ne_counter (first second : Nat) :
    numbered "condition" first ≠ numbered "repeat" second :=
  fun same => absurd (numbered_inj.mp same).1 (by decide)

namespace Scope

variable {scope other : Scope} {shared : SharedScope}

/-- A numbered name is in sight only when it was handed out. -/
structure Tidy (scope : Scope) (shared : SharedScope) : Prop where
  flags : ∀ number, scope.sees shared (SharedScope.numbered "condition" number) = true →
    number < shared.names.flags
  counters : ∀ number, scope.sees shared (SharedScope.numbered "repeat" number) = true →
    number < shared.names.counters

theorem tidy_fresh : Tidy {} {} where
  flags := fun _ isSeen => nomatch isSeen
  counters := fun _ isSeen => nomatch isSeen

namespace Tidy

/-- Where no more is in sight. -/
theorem of_sees (tidy : scope.Tidy shared)
    (seen : ∀ name, other.sees shared name = true → scope.sees shared name = true) :
    other.Tidy shared where
  flags := fun number isSeen => tidy.flags number (seen _ isSeen)
  counters := fun number isSeen => tidy.counters number (seen _ isSeen)

theorem derive (tidy : scope.Tidy shared) : scope.derive.Tidy shared := by
  apply tidy.of_sees
  intro name isSeen
  rwa [sees_derive] at isSeen

/-- Back from a nested block, whatever it declared. -/
theorem leave {declared : List String}
    (tidy : ({ scope.derive with declared } : Scope).Tidy shared) : scope.Tidy shared := by
  apply tidy.of_sees
  intro name isSeen
  simp only [sees, inherited_derive, List.contains_append, Bool.or_eq_true] at isSeen ⊢
  rcases isSeen with (isDeclared | isInherited) | isShared
  · exact .inl (.inr (.inr isDeclared))
  · exact .inl (.inr (.inl isInherited))
  · exact .inr isShared

end Tidy

/-- Numbering a name puts none in sight, and one that was not is added to those of the block. -/
theorem declare_numbered {stem : String}
    (unseen : ¬ scope.sees shared (SharedScope.numbered stem (shared.count stem)) = true) :
    (scope.declare (shared.uniqueName stem).2
        (SharedScope.numbered stem (shared.count stem))).2 =
      { scope with
        declared := scope.declared ++ [SharedScope.numbered stem (shared.count stem)] } :=
  congrArg Prod.snd (if_neg unseen)

namespace Tidy

theorem flag_unseen (tidy : scope.Tidy shared) :
    ¬ scope.sees shared (SharedScope.numbered "condition" (shared.count "condition")) = true :=
  fun isSeen => Nat.lt_irrefl _ (tidy.flags _ isSeen)

theorem counter_unseen (tidy : scope.Tidy shared) :
    ¬ scope.sees shared (SharedScope.numbered "repeat" (shared.count "repeat")) = true :=
  fun isSeen => Nat.lt_irrefl _ (tidy.counters _ isSeen)

/-- Declaring the name just numbered on one stem leaves only numbers of another in sight that were
handed out, as names on different stems differ. -/
theorem lt_count_declaring {stem other : String}
    (apart : other ≠ stem →
      ∀ first second, SharedScope.numbered other first ≠ SharedScope.numbered stem second)
    (below : ∀ number, scope.sees shared (SharedScope.numbered other number) = true →
      number < shared.count other)
    (number : Nat)
    (isSeen : ({ scope with declared := scope.declared ++
      [SharedScope.numbered stem (shared.count stem)] } : Scope).sees shared
        (SharedScope.numbered other number) = true) :
    number < (shared.uniqueName stem).2.count other := by
  have seen := (sees_declaring _ _).mp isSeen
  by_cases same : other = stem
  · subst same
    rw [shared.count_uniqueName_self]
    rcases seen with isNew | wasSeen
    · rw [SharedScope.numbered_injective _ isNew]
      exact Nat.lt_succ_self _
    · exact Nat.lt_succ_of_lt (below number wasSeen)
  · rw [shared.count_uniqueName_of_ne same]
    rcases seen with isNew | wasSeen
    · exact absurd isNew (apart same _ _)
    · exact below number wasSeen

theorem declaring_flag (tidy : scope.Tidy shared) :
    ({ scope with declared := scope.declared ++
      [SharedScope.numbered "condition" (shared.count "condition")] } : Scope).Tidy
        (shared.uniqueName "condition").2 where
  flags := lt_count_declaring (fun differs => absurd rfl differs) tidy.flags
  counters := lt_count_declaring
    (fun _ first second same => SharedScope.flag_ne_counter second first same.symm) tidy.counters

theorem declaring_counter (tidy : scope.Tidy shared) :
    ({ scope with declared := scope.declared ++
      [SharedScope.numbered "repeat" (shared.count "repeat")] } : Scope).Tidy
        (shared.uniqueName "repeat").2 where
  flags := lt_count_declaring (fun _ => SharedScope.flag_ne_counter) tidy.flags
  counters := lt_count_declaring (fun differs => absurd rfl differs) tidy.counters

end Tidy

end Scope

/-! ## What an action leaves -/

namespace BlockProgram

def Statement.bound? : Statement → Option String
  | .bindFlag flag _ => some flag
  | .bindCounter counter _ => some counter
  | _ => none

/-- The names that the statements of a block bind in it. -/
def bound (program : BlockProgram) : List String := program.filterMap Statement.bound?

theorem bound_append (first second : BlockProgram) :
    bound (first ++ second) = bound first ++ bound second :=
  List.filterMap_append

end BlockProgram

theorem BlockProgram.bound_withHooks (emitHooks : Bool) (node : NodeId)
    (program : BlockProgram) : bound (program.withHooks emitHooks node) = bound program := by
  rw [withHooks]
  split
  · next empty =>
      rw [List.isEmpty_iff.mp empty]
  · split
    · rw [List.cons_append, bound, List.filterMap_cons_none rfl, List.filterMap_append]
      exact List.append_nil _
    · rfl

/-- Names that stay inside a nested block. -/
def Naming.hidden {α : Type} (naming : Naming α) : Naming (List String) := do
  let _ ← naming
  return []

/-- Put down to an event what is not put down to any. -/
def Diagnostic.allAttributed (current : Option NodeId) (reports : List Diagnostic) :
    List Diagnostic :=
  reports.map fun report => report.attributedTo current

theorem Diagnostic.allAttributed_append (current : Option NodeId)
    (first second : List Diagnostic) :
    allAttributed current (first ++ second) =
      allAttributed current first ++ allAttributed current second :=
  List.map_append

theorem Codegen.ProgramState.reportAll_eq (reports : List Diagnostic) (state : ProgramState) :
    state.reportAll reports = { state with
      diagnostics := state.diagnostics ++ Diagnostic.allAttributed state.current reports } := by
  induction reports generalizing state with
  | nil =>
      rw [Diagnostic.allAttributed, List.map_nil, List.append_nil]
      rfl
  | cons head tail induction =>
      rw [reportAll, List.foldl_cons, ← reportAll, induction, report, Diagnostic.allAttributed,
        Diagnostic.allAttributed, List.map_cons, List.append_assoc]
      rfl

/-- In a block at a depth, while the code of `current` is generated, `action` counts the names that
`naming` does, declares those it answers with, and reports the problems. -/
def Leaves {α : Type} (depth : Nat) (current : Option NodeId) (action : Emit ProgramState α)
    (naming : Naming (List String)) (problems : List Diagnostic) : Prop :=
  ∀ emission : Emission ProgramState, emission.scope.depth = depth →
    emission.generator.current = current → emission.scope.Tidy emission.shared →
      (action emission).2.scope.Tidy (action emission).2.shared ∧
      (action emission).2.shared.names = (naming emission.shared.names).2 ∧
      (action emission).2.scope = { emission.scope with
        declared := emission.scope.declared ++ (naming emission.shared.names).1 } ∧
      (action emission).2.generator = { emission.generator with
        diagnostics := emission.generator.diagnostics ++ problems }

namespace Leaves

variable {α γ : Type} {depth : Nat} {current : Option NodeId} {action : Emit ProgramState α}
  {naming more : Naming (List String)} {problems others : List Diagnostic}

theorem of_eq (leaves : Leaves depth current action naming problems)
    (same : ∀ names, naming names = more names) : Leaves depth current action more problems := by
  have equal : naming = more := funext same
  rw [← equal]
  exact leaves

theorem pure (answer : α) :
    Leaves depth current (Pure.pure answer) (Pure.pure []) [] := by
  intro emission _ _ tidy
  refine ⟨tidy, rfl, ?_, ?_⟩
  · exact congrArg (fun declared => { emission.scope with declared }) (List.append_nil _).symm
  · exact congrArg (fun diagnostics => { emission.generator with diagnostics })
      (List.append_nil _).symm

theorem bind_answer {next : α → Emit ProgramState γ}
    (first : Leaves depth current action naming problems)
    (rest : ∀ emission, Leaves depth current (next (action emission).1) more others) :
    Leaves depth current (action >>= next)
      (do let names ← naming; return names ++ (← more)) (problems ++ others) := by
  intro emission atDepth isCurrent tidy
  rcases first emission atDepth isCurrent tidy with ⟨tidyThen, names, scope, generator⟩
  have atDepthThen : (action emission).2.scope.depth = depth := by
    rw [scope]
    exact atDepth
  have isCurrentThen : (action emission).2.generator.current = current := by
    rw [generator]
    exact isCurrent
  have after := rest emission _ atDepthThen isCurrentThen tidyThen
  rw [names, scope, generator] at after
  rcases after with ⟨tidyAfter, namesAfter, scopeAfter, generatorAfter⟩
  refine ⟨tidyAfter, namesAfter, ?_, ?_⟩
  · rw [List.append_assoc] at scopeAfter
    exact scopeAfter
  · rw [List.append_assoc] at generatorAfter
    exact generatorAfter

theorem bind {next : α → Emit ProgramState γ}
    (first : Leaves depth current action naming problems)
    (rest : ∀ answer, Leaves depth current (next answer) more others) :
    Leaves depth current (action >>= next)
      (do let names ← naming; return names ++ (← more)) (problems ++ others) :=
  first.bind_answer fun emission => rest (action emission).1

/-- What names nothing goes first. -/
theorem following {next : α → Emit ProgramState γ}
    (first : Leaves depth current action (Pure.pure []) problems)
    (rest : ∀ answer, Leaves depth current (next answer) more others) :
    Leaves depth current (action >>= next) more (problems ++ others) :=
  (first.bind rest).of_eq fun _ => rfl

/-- What names nothing comes last. -/
theorem andThen {next : α → Emit ProgramState γ}
    (first : Leaves depth current action naming problems)
    (rest : ∀ emission, Leaves depth current (next (action emission).1) (Pure.pure []) others) :
    Leaves depth current (action >>= next) naming (problems ++ others) := by
  apply (first.bind_answer rest).of_eq
  intro names
  exact congrArg (·, (naming names).2) (List.append_nil _)

/-- Nothing is left by what only computes the answer. -/
theorem map (first : Leaves depth current action naming problems) (change : α → γ) :
    Leaves depth current (action >>= fun answer => Pure.pure (change answer)) naming problems := by
  rw [← List.append_nil problems]
  exact first.andThen fun _ => pure _

theorem reportAll (reports : List Diagnostic) :
    Leaves depth current (Program.reportAll reports) (Pure.pure [])
      (Diagnostic.allAttributed current reports) := by
  intro emission _ isCurrent tidy
  refine ⟨tidy, rfl, ?_, ?_⟩
  · exact congrArg (fun declared => { emission.scope with declared }) (List.append_nil _).symm
  · rw [← isCurrent]
    exact ProgramState.reportAll_eq reports emission.generator

theorem nested (inner : Leaves (depth + 1) current action naming problems) :
    Leaves depth current (Emit.nested action) naming.hidden problems := by
  intro emission atDepth isCurrent tidy
  have derived : emission.scope.derive.depth = depth + 1 := by
    rw [Scope.depth_derive, atDepth]
  rcases inner { emission with scope := emission.scope.derive } derived isCurrent tidy.derive with
    ⟨tidyAfter, names, scope, generator⟩
  rw [scope] at tidyAfter
  refine ⟨tidyAfter.leave, names, ?_, generator⟩
  exact congrArg (fun declared => { emission.scope with declared }) (List.append_nil _).symm

/-- A flag is numbered and declared at once. -/
theorem flag : Leaves depth current
    (do let flag ← Emit.uniqueName "condition"; let _ ← Emit.declare flag; return flag)
    (do return [← Naming.flag]) [] := by
  intro emission atDepth isCurrent tidy
  have scope := Scope.declare_numbered tidy.flag_unseen
  have tidyThen := tidy.declaring_flag
  rw [← scope] at tidyThen
  refine ⟨tidyThen, (Emits.flag emission atDepth).2.1, scope, ?_⟩
  exact congrArg (fun diagnostics => { emission.generator with diagnostics })
    (List.append_nil _).symm

theorem counter : Leaves depth current
    (do let counter ← Emit.uniqueName "repeat"; let _ ← Emit.declare counter; return counter)
    (do return [← Naming.counter]) [] := by
  intro emission atDepth isCurrent tidy
  have scope := Scope.declare_numbered tidy.counter_unseen
  have tidyThen := tidy.declaring_counter
  rw [← scope] at tidyThen
  refine ⟨tidyThen, (Emits.counter emission atDepth).2.1, scope, ?_⟩
  exact congrArg (fun diagnostics => { emission.generator with diagnostics })
    (List.append_nil _).symm

end Leaves

/-! ## Events -/

/-- The problems met when conditions are compiled. -/
def InstructionList.conditionReports (conditions : InstructionList) : List Diagnostic :=
  (conditions.map renderCondition).flatMap Rendered.reports

/-- The problems met when actions are compiled. -/
def InstructionList.actionReports (actions : InstructionList) : List Diagnostic :=
  (actions.map renderCall).flatMap Rendered.reports

namespace Naming

/-- A flag for each of a number of lists. -/
def flags : Nat → Naming (List String)
  | 0 => return []
  | count + 1 => do
      let flag ← Naming.flag
      return flag :: (← flags count)

end Naming

section

variable {depth : Nat} {current : Option NodeId} (settings : Settings) (population : Population)

namespace Leaves

theorem conditionList (conditions : InstructionList) :
    Leaves depth current ((Program.emitter settings population).conditions conditions)
      (do return [← Naming.flag])
      (Diagnostic.allAttributed current (InstructionList.conditionReports conditions)) := by
  have reported (name : String) : Leaves depth current _ _ _ :=
    (reportAll (InstructionList.conditionReports conditions)).map fun _ =>
      (⟨Program.bindFlag name (Program.flagExpression (conditions.map renderCondition)), name⟩ :
        CompiledConditions)
  exact (flag.bind reported).of_eq fun _ => rfl

theorem actionList (actions : InstructionList) :
    Leaves depth current ((Program.emitter settings population).actions actions) (Pure.pure [])
      (Diagnostic.allAttributed current (InstructionList.actionReports actions)) :=
  (reportAll _).map fun _ => String.join
    (((actions.map renderCall).filterMap Rendered.result).map Program.statement)

theorem report (problem : Diagnostic) :
    Leaves depth current ((Program.emitter settings population).report problem) (Pure.pure [])
      (Diagnostic.allAttributed current [problem]) :=
  reportAll [problem]

theorem compileConditions (lists : List InstructionList) :
    Leaves depth current
      (GuardedBlock.compileConditions (Program.emitter settings population) lists)
      (Naming.flags lists.length)
      (Diagnostic.allAttributed current (lists.flatMap InstructionList.conditionReports)) := by
  induction lists with
  | nil => exact pure []
  | cons head tail induction =>
      rw [List.flatMap_cons, Diagnostic.allAttributed_append]
      exact ((conditionList settings population head).bind fun compiled =>
        induction.map (compiled :: ·)).of_eq fun _ => rfl

theorem compileActions (lists : List InstructionList) :
    Leaves depth current
      (GuardedBlock.compileActions (Program.emitter settings population) lists) (Pure.pure [])
      (Diagnostic.allAttributed current (lists.flatMap InstructionList.actionReports)) := by
  induction lists with
  | nil => exact pure ""
  | cons head tail induction =>
      rw [List.flatMap_cons, Diagnostic.allAttributed_append]
      exact (actionList settings population head).following fun text => induction.map (text ++ ·)

/-- What compiles the sub-events of a node, if it has any. -/
def OfSubEvents (depth : Nat) (current : Option NodeId)
    (action : Option (Emit ProgramState String)) (naming : Naming (List String))
    (problems : List Diagnostic) : Prop :=
  Leaves depth current
    (GuardedBlock.compileSubEvents (Program.emitter settings population) action) naming problems

variable {settings population}

theorem OfSubEvents.none :
    OfSubEvents settings population depth current none (Pure.pure []) [] :=
  pure ""

theorem OfSubEvents.some {action : Emit ProgramState String} {naming : Naming (List String)}
    {problems : List Diagnostic} (inner : Leaves (depth + 1) current action naming problems) :
    OfSubEvents settings population depth current (some action) naming.hidden problems :=
  inner.nested.map fun code => if code.isEmpty then "" else block "" code ""

variable {action : Option (Emit ProgramState String)} {naming : Naming (List String)}
  {problems : List Diagnostic}

theorem OfSubEvents.generateBody
    (inner : OfSubEvents settings population depth current action naming problems)
    (actions : List InstructionList) :
    Leaves depth current
      (GuardedBlock.generateBody { actions, subEvents := action }
        (Program.emitter settings population)) naming
      (Diagnostic.allAttributed current (actions.flatMap InstructionList.actionReports) ++
        problems) :=
  (compileActions settings population actions).following fun text => map inner (text ++ ·)

theorem OfSubEvents.generate
    (inner : OfSubEvents settings population depth current action naming problems)
    (conditions actions : List InstructionList) :
    Leaves depth current
      (GuardedBlock.generate { conditions, actions, subEvents := action }
        (Program.emitter settings population))
      (do let flags ← Naming.flags conditions.length; return flags ++ (← naming))
      (Diagnostic.allAttributed current (conditions.flatMap InstructionList.conditionReports) ++
        (Diagnostic.allAttributed current (actions.flatMap InstructionList.actionReports) ++
          problems)) :=
  (compileConditions settings population conditions).bind fun compiled =>
    (inner.generateBody actions).map fun body =>
      String.join (compiled.map CompiledConditions.code) ++
        block (GuardedBlock.guardHeader .all (compiled.map CompiledConditions.flag)) body ""

theorem OfSubEvents.generateRepetition
    (inner : OfSubEvents settings population (depth + 1) current action naming problems)
    (repetition : Kind.Repetition) (counted : repetition.count.isEmpty = false) :
    Leaves depth current
      (repetition.generate (Program.emitter settings population) action)
      (do
        let counter ← Naming.counter
        let _ ← Naming.flag
        let _ ← naming
        return [counter])
      (Diagnostic.allAttributed current
          (InstructionList.conditionReports repetition.conditions ++
            InstructionList.actionReports repetition.actions) ++ problems) := by
  simp only [Kind.Repetition.generate, counted, Bool.false_eq_true, ↓reduceIte]
  have body := (inner.generate [repetition.conditions] [repetition.actions]).nested
  simp only [List.flatMap_singleton, ← List.append_assoc, ← Diagnostic.allAttributed_append]
    at body
  exact (counter.bind fun counter => body.map fun body =>
    Kind.Repetition.bindCounter counter repetition.count.trimmed ++
      block (Kind.Repetition.loopHeader counter) body "").of_eq fun _ => rfl

theorem generateUncounted (repetition : Kind.Repetition)
    (uncounted : repetition.count.isEmpty = true) :
    Leaves depth current
      (repetition.generate (Program.emitter settings population) action) (Pure.pure [])
      (Diagnostic.allAttributed current [Kind.Repetition.withoutCount]) := by
  simp only [Kind.Repetition.generate, uncounted, ↓reduceIte]
  exact (report settings population Kind.Repetition.withoutCount).map fun _ => ""

/-! The arms of a branch. -/

variable (settings population) in
/-- Actions and nothing below them. -/
theorem generateActions (actions : InstructionList) :
    Leaves depth current
      (GuardedBlock.generateBody { actions := [actions] } (Program.emitter settings population))
      (Pure.pure [])
      (Diagnostic.allAttributed current (InstructionList.actionReports actions)) := by
  have nothing : OfSubEvents settings population depth current none _ _ := OfSubEvents.none
  have body := nothing.generateBody [actions]
  rwa [List.flatMap_singleton, List.append_nil] at body

variable (settings population) in
theorem generateArms (isFirst : Bool) (arms : List (Kind.BranchArm × CompiledConditions)) :
    Leaves depth current
      (Kind.Branch.generateArms (Program.emitter settings population) isFirst arms) (Pure.pure [])
      (Diagnostic.allAttributed current
        (((arms.map Prod.fst).map Kind.BranchArm.actions).flatMap
          InstructionList.actionReports)) := by
  induction arms generalizing isFirst with
  | nil => exact pure ""
  | cons head tail induction =>
      rcases head with ⟨arm, compiled⟩
      rw [List.map_cons, List.map_cons, List.flatMap_cons, Diagnostic.allAttributed_append]
      exact (generateActions settings population arm.actions).following fun body =>
        (induction false).map fun rest =>
          Kind.Branch.armHeader isFirst compiled.flag ++ Text.indent body "" ++ rest

theorem generateOtherwise (otherwise : InstructionList) :
    Leaves depth current
      (Kind.Branch.generateOtherwise (Program.emitter settings population) otherwise)
      (Pure.pure [])
      (Diagnostic.allAttributed current (InstructionList.actionReports otherwise)) := by
  rw [Kind.Branch.generateOtherwise]
  cases otherwise with
  | nil => exact pure ""
  | cons head tail =>
      exact (generateActions settings population (head :: tail)).map fun body =>
        "\x7d else \x7b\n" ++ Text.indent body ""

theorem generateArmless (otherwise : InstructionList) :
    Leaves depth current
      (Kind.Branch.generate ⟨[], otherwise⟩ (Program.emitter settings population)) (Pure.pure [])
      (Diagnostic.allAttributed current (InstructionList.actionReports otherwise)) := by
  cases otherwise with
  | nil => exact pure ""
  | cons head tail =>
      exact (compileConditions settings population []).following fun compiled =>
        (generateActions settings population (head :: tail)).map fun body =>
          String.join (compiled.map CompiledConditions.code) ++
            block (GuardedBlock.guardHeader .all (compiled.map CompiledConditions.flag)) body ""

/-- The conditions of all arms come before the actions of the first. -/
theorem generateBranch (branch : Kind.Branch) :
    Leaves depth current (branch.generate (Program.emitter settings population))
      (Naming.flags branch.arms.length)
      (Diagnostic.allAttributed current
        (branch.conditionLists.flatMap InstructionList.conditionReports ++
          branch.actionLists.flatMap InstructionList.actionReports)) := by
  rcases branch with ⟨arms, otherwise⟩
  rw [Kind.Branch.conditionLists, Kind.Branch.actionLists, List.flatMap_append,
    List.flatMap_singleton]
  cases arms with
  | nil => exact generateArmless otherwise
  | cons head tail =>
      rw [Kind.Branch.generate, List.isEmpty_cons, if_neg Bool.false_ne_true]
      have conditions : Leaves depth current _ _ _ :=
        compileConditions settings population ((head :: tail).map Kind.BranchArm.conditions)
      rw [List.length_map] at conditions
      rw [Diagnostic.allAttributed_append, Diagnostic.allAttributed_append]
      apply conditions.andThen
      intro emission
      have paired := GuardedBlock.length_compileConditions (Program.emitter settings population)
        ((head :: tail).map Kind.BranchArm.conditions) emission
      generalize (GuardedBlock.compileConditions (Program.emitter settings population)
        ((head :: tail).map Kind.BranchArm.conditions) emission).1 = compiled at paired ⊢
      rw [List.length_map] at paired
      have generated : Leaves depth current _ _ _ :=
        generateArms settings population true ((head :: tail).zip compiled)
      rw [List.map_fst_zip (Nat.le_of_eq paired.symm)] at generated
      exact generated.following fun arms => (generateOtherwise otherwise).map fun otherwise =>
        String.join (compiled.map CompiledConditions.code) ++ arms ++ otherwise ++ "\x7d\n"

theorem whileCompiling {code : Emit ProgramState String} {id : NodeId}
    (inner : Leaves depth (some id) code naming problems) :
    Leaves depth current (Program.whileCompiling id code) naming problems := by
  intro emission atDepth _ tidy
  rcases inner { emission with generator := { emission.generator with current := some id } }
    atDepth rfl tidy with ⟨tidyAfter, names, scope, generator⟩
  exact ⟨tidyAfter, names, scope, congrArg (fun state : ProgramState =>
    { state with current := emission.generator.current }) generator⟩

end Leaves

end

theorem Kind.Branch.bound_bindings (named : List (BranchArm × String)) :
    BlockProgram.bound (named.map bindArm) = named.map Prod.snd := by
  induction named with
  | nil => rfl
  | cons head tail induction => exact congrArg (head.2 :: ·) induction

theorem Kind.Branch.bound_assemble (otherwise : InstructionList)
    (named : List (BranchArm × String)) :
    BlockProgram.bound (assemble otherwise named) = named.map Prod.snd := by
  cases named with
  | nil =>
      rw [assemble]
      split <;> rfl
  | cons head tail =>
      rw [assemble, BlockProgram.bound_append]
      exact (List.append_nil _).trans (bound_bindings (head :: tail))

theorem Kind.Branch.map_nameArms (arms : List BranchArm) :
    (List.map Prod.snd <$> nameArms arms) = Naming.flags arms.length := by
  induction arms with
  | nil => rfl
  | cons head tail induction =>
      rw [List.length_cons, Naming.flags, ← induction]
      rfl

theorem Kind.Branch.bound_program (branch : Branch) (names : Names) :
    Naming.flags branch.arms.length names = (BlockProgram.bound <$> branch.program) names := by
  rw [← map_nameArms]
  exact congrArg (·, (nameArms branch.arms names).2) (bound_assemble branch.otherwise _).symm

/-! ## Problems of a forest -/

/-- The problems met when the code of an event alone is generated. -/
def Event.reports (event : Event Kind.Builtin) : List Diagnostic :=
  if event.disabled then []
  else match event.behavior with
    | .standard standard =>
        InstructionList.conditionReports standard.conditions ++
          InstructionList.actionReports standard.actions
    | .branch branch =>
        branch.conditionLists.flatMap InstructionList.conditionReports ++
          branch.actionLists.flatMap InstructionList.actionReports
    | .repetition repetition =>
        if repetition.count.isEmpty then [Kind.Repetition.withoutCount]
        else
          InstructionList.conditionReports repetition.conditions ++
            InstructionList.actionReports repetition.actions
    | .comment _ | .link _ => []

/-- The flaws that are met when the code of an event alone is generated. -/
inductive Event.Flaw : Diagnostic → Prop
  | nameless : Flaw namelessInstruction
  | emptyParameter (position : Nat) (name : String) : Flaw (Codegen.emptyParameter position name)
  | uncounted : Flaw Kind.Repetition.withoutCount

namespace Event.Flaw

variable {report : Diagnostic}

theorem of_mem_parameterWarnings {name : String} {position : Nat} {parameters : List Expression}
    (isReport : report ∈ parameterWarnings name position parameters) : Flaw report := by
  induction parameters generalizing position with
  | nil => cases isReport
  | cons head tail induction =>
      rw [parameterWarnings] at isReport
      split at isReport
      · rcases List.mem_cons.mp isReport with rfl | isLater
        · exact .emptyParameter position name
        · exact induction isLater
      · exact induction isReport

mutual
theorem of_mem_renderCall : ∀ {instruction : Instruction},
    report ∈ (renderCall instruction).reports → Flaw report
  | ⟨name, parameters, inverted, nested⟩, isReport => by
      rw [renderCall] at isReport
      split at isReport
      · cases List.mem_singleton.mp isReport
        exact .nameless
      · rcases List.mem_append.mp isReport with isWarning | isNested
        · exact of_mem_parameterWarnings isWarning
        · exact of_mem_renderOperands isNested

theorem of_mem_renderOperands : ∀ {operands : List Instruction},
    report ∈ (renderOperands operands).reports → Flaw report
  | [], isReport => nomatch isReport
  | head :: tail, isReport => by
      rw [renderOperands] at isReport
      split at isReport
      · exact of_mem_renderCall isReport
      · rcases List.mem_append.mp isReport with isHead | isTail
        · exact of_mem_renderCall isHead
        · exact of_mem_renderOperands isTail
end

theorem of_mem_conditionReports {conditions : InstructionList}
    (isReport : report ∈ conditions.conditionReports) : Flaw report := by
  rcases List.mem_flatMap.mp isReport with ⟨rendered, isRendered, isOne⟩
  rcases List.mem_map.mp isRendered with ⟨condition, -, rfl⟩
  have isOfCall : report ∈ (renderCall condition).reports := isOne
  exact of_mem_renderCall isOfCall

theorem of_mem_actionReports {actions : InstructionList}
    (isReport : report ∈ actions.actionReports) : Flaw report := by
  rcases List.mem_flatMap.mp isReport with ⟨rendered, isRendered, isOne⟩
  rcases List.mem_map.mp isRendered with ⟨action, -, rfl⟩
  exact of_mem_renderCall isOne

theorem of_mem_lists {conditions actions : InstructionList}
    (isReport : report ∈ conditions.conditionReports ++ actions.actionReports) : Flaw report :=
  (List.mem_append.mp isReport).elim of_mem_conditionReports of_mem_actionReports

end Event.Flaw

theorem Event.flaw_of_mem_reports (event : Event Kind.Builtin) {report : Diagnostic}
    (isReport : report ∈ event.reports) : Event.Flaw report := by
  rw [reports] at isReport
  split at isReport
  · cases isReport
  · revert isReport
    cases event.behavior with
    | standard standard => exact .of_mem_lists
    | branch branch =>
        intro isReport
        rcases List.mem_append.mp isReport with isCondition | isAction
        · rcases List.mem_flatMap.mp isCondition with ⟨list, -, isOne⟩
          exact .of_mem_conditionReports isOne
        · rcases List.mem_flatMap.mp isAction with ⟨list, -, isOne⟩
          exact .of_mem_actionReports isOne
    | repetition repetition =>
        dsimp only
        split
        · intro isReport
          cases List.mem_singleton.mp isReport
          exact .uncounted
        · exact .of_mem_lists
    | comment _ => exact fun isReport => nomatch isReport
    | link _ => exact fun isReport => nomatch isReport

/-- A forest in more blocks than the limit is reported and left out. -/
def Codegen.Program.leftOut (settings : Settings) (depth : Nat) (forest : Forest Kind.Builtin) :
    List Diagnostic :=
  if forest.isEmpty then []
  else if settings.limits.maxNestingDepth.toNat < depth then
    [nestedTooDeeply (Forest.count forest) settings.limits.maxNestingDepth.toNat]
  else []

namespace Lineage

/-- The problems of a node: its own, and that its sub-events are left out. -/
def reports (settings : Settings) (lineage : Lineage Kind.Builtin) : List Diagnostic :=
  lineage.node.event.reports ++
    if lineage.node.event.generatesSubEvents then
      Program.leftOut settings (Event.blocks (lineage.node.event :: lineage.ancestors))
        lineage.node.subEvents
    else []

section

variable {settings : Settings} {ancestors : List (Event Kind.Builtin)}
  {subEvents : List (Node Kind.Builtin)} {id : NodeId} {folded : Bool}
  {remembered : Option NodeId} {repetition : Kind.Repetition}

theorem reports_branch (branch : Kind.Branch) :
    reports settings ⟨ancestors, ⟨⟨id, .branch branch, false, folded, remembered⟩, subEvents⟩⟩ =
      branch.conditionLists.flatMap InstructionList.conditionReports ++
        branch.actionLists.flatMap InstructionList.actionReports :=
  List.append_nil _

/-- Without a count nothing is repeated, and nothing below is generated. -/
theorem reports_uncounted (uncounted : repetition.count.isEmpty = true) :
    reports settings ⟨ancestors,
        ⟨⟨id, .repetition repetition, false, folded, remembered⟩, subEvents⟩⟩ =
      [Kind.Repetition.withoutCount] := by
  have stops : Event.generatesSubEvents
      ⟨id, .repetition repetition, false, folded, remembered⟩ = false := congrArg (!·) uncounted
  simp [reports, Event.reports, stops, uncounted]

theorem reports_counted (counted : repetition.count.isEmpty = false) :
    reports settings ⟨ancestors,
        ⟨⟨id, .repetition repetition, false, folded, remembered⟩, subEvents⟩⟩ =
      InstructionList.conditionReports repetition.conditions ++
          InstructionList.actionReports repetition.actions ++
        Program.leftOut settings (Event.blocks
          (⟨id, .repetition repetition, false, folded, remembered⟩ :: ancestors)) subEvents := by
  have passes : Event.generatesSubEvents
      ⟨id, .repetition repetition, false, folded, remembered⟩ = true := congrArg (!·) counted
  simp [reports, Event.reports, passes, counted]

end

/-- The problems of a node, put down to the event it stands for. -/
def problems (settings : Settings) (population : Population) (lineage : Lineage Kind.Builtin) :
    List Diagnostic :=
  Diagnostic.allAttributed (some (lineage.node.event.sourceId population))
    (lineage.reports settings)

end Lineage

section

variable {settings : Settings} {population : Population} {current : Option NodeId}

/-- What nodes leave when they lie in few enough blocks. -/
def LeavesNodes (settings : Settings) (population : Population)
    (ancestors : List (Event Kind.Builtin)) (forest : List (Node Kind.Builtin)) : Prop :=
  ∀ current, ancestors.all Event.generatesSubEvents = true →
    Event.blocks ancestors ≤ settings.limits.maxNestingDepth.toNat →
    Leaves (Event.blocks ancestors) current
      (Program.compileNodes settings.profiling.emitHooks population
        (Forest.generators (Program.generator settings population) forest))
      (BlockProgram.bound <$> Forest.programs settings population (Event.blocks ancestors) forest)
      ((Program.reachedLineages settings ancestors forest).flatMap
        (Lineage.problems settings population))

namespace LeavesNodes

variable {ancestors : List (Event Kind.Builtin)} {forest : List (Node Kind.Builtin)}

theorem generateForest (nodes : LeavesNodes settings population ancestors forest)
    (passed : ancestors.all Event.generatesSubEvents = true) :
    Leaves (Event.blocks ancestors) current
      (Forest.generate (Program.generator settings population) forest)
      (BlockProgram.bound <$>
        Naming.within settings.limits.maxNestingDepth.toNat (Event.blocks ancestors)
          (Forest.programs settings population (Event.blocks ancestors) forest))
      (Diagnostic.allAttributed current
          (if settings.limits.maxNestingDepth.toNat < Event.blocks ancestors then
            [Program.nestedTooDeeply (Forest.count forest)
              settings.limits.maxNestingDepth.toNat] else []) ++
        (Program.reachedLineages settings ancestors forest).flatMap
          (Lineage.problems settings population)) := by
  intro emission atDepth
  -- the depth is read off the scope before anything is left
  have applied : Forest.generate (Program.generator settings population) forest emission =
      (if settings.limits.maxNestingDepth.toNat < Event.blocks ancestors then do
        Program.reportAll [Program.nestedTooDeeply
          (Forest.count ((Forest.generators (Program.generator settings population) forest).map
            Prod.fst)) settings.limits.maxNestingDepth.toNat]
        return ""
      else Program.compileNodes settings.profiling.emitHooks population
        (Forest.generators (Program.generator settings population) forest)) emission := by
    rw [← atDepth, ← Forest.countNodes_eq_count]
    rfl
  rw [applied, Forest.map_fst_generators, Naming.within]
  clear applied
  revert emission
  by_cases tooDeep : settings.limits.maxNestingDepth.toNat < Event.blocks ancestors
  · have none := Program.reachedLineages_eq_nil
      (fun passes => Nat.not_le_of_lt tooDeep passes.2) forest
    simp only [if_pos tooDeep, none, List.flatMap_nil, List.append_nil]
    exact ((Leaves.reportAll _).map fun _ => "").of_eq fun _ => rfl
  · simp only [if_neg tooDeep]
    exact nodes current passed (Nat.le_of_not_lt tooDeep)

/-- What compiles the sub-events of an event, if it has any. -/
theorem ofSubEvents {depth : Nat} (nodes : LeavesNodes settings population ancestors forest)
    (passed : ancestors.all Event.generatesSubEvents = true)
    (deeper : Event.blocks ancestors = depth + 1) :
    Leaves.OfSubEvents settings population depth current
      (if (Forest.generators (Program.generator settings population) forest).isEmpty then none
        else some (Forest.generate (Program.generator settings population) forest))
      (Naming.hidden (Naming.within settings.limits.maxNestingDepth.toNat (depth + 1)
        (Forest.programs settings population (depth + 1) forest)))
      (Diagnostic.allAttributed current
          (Program.leftOut settings (Event.blocks ancestors) forest) ++
        (Program.reachedLineages settings ancestors forest).flatMap
          (Lineage.problems settings population)) := by
  cases forest with
  | nil =>
      apply Leaves.OfSubEvents.none.of_eq
      intro names
      rw [Forest.programs, Naming.within, ite_self]
      rfl
  | cons head tail =>
      have inner : Leaves _ current _ _ _ := nodes.generateForest passed
      rw [deeper] at inner
      rw [deeper]
      exact (Leaves.OfSubEvents.some inner).of_eq fun _ => rfl

theorem generateNode {event : Event Kind.Builtin} {subEvents : List (Node Kind.Builtin)}
    (nodes : LeavesNodes settings population (event :: ancestors) subEvents)
    (passed : ancestors.all Event.generatesSubEvents = true) :
    Leaves (Event.blocks ancestors) current
      (Node.generate (Program.generator settings population) ⟨event, subEvents⟩)
      (BlockProgram.bound <$>
        Node.program settings population (Event.blocks ancestors) ⟨event, subEvents⟩)
      (Diagnostic.allAttributed current
          (Lineage.reports settings ⟨ancestors, ⟨event, subEvents⟩⟩) ++
        (Program.reachedLineages settings (event :: ancestors) subEvents).flatMap
          (Lineage.problems settings population)) := by
  have blocks := Event.blocks_cons event ancestors
  have stopped (stops : event.generatesSubEvents = false) :
      Program.reachedLineages settings (event :: ancestors) subEvents = [] :=
    Program.reachedLineages_below_eq_nil stops subEvents
  rw [Node.generate, Node.program]
  rcases event with ⟨id, behavior, disabled, folded, remembered⟩
  cases disabled with
  | true =>
      rw [stopped rfl]
      exact Leaves.pure ""
  | false =>
      cases behavior with
      | standard standard =>
          have inner : Leaves.OfSubEvents settings population _ current _ _ _ :=
            nodes.ofSubEvents passed blocks
          have generated := inner.generate [standard.conditions] [standard.actions]
          simp only [List.flatMap_singleton, ← List.append_assoc,
            ← Diagnostic.allAttributed_append] at generated
          exact generated.of_eq fun _ => rfl
      | branch branch =>
          rw [stopped rfl, List.flatMap_nil, List.append_nil, Lineage.reports_branch]
          exact (Leaves.generateBranch branch).of_eq branch.bound_program
      | repetition repetition =>
          cases uncounted : repetition.count.isEmpty with
          | true =>
              have stops : Event.generatesSubEvents
                  ⟨id, .repetition repetition, false, folded, remembered⟩ = false :=
                congrArg (!·) uncounted
              rw [stopped stops, List.flatMap_nil, List.append_nil,
                Lineage.reports_uncounted uncounted]
              apply (Leaves.generateUncounted repetition uncounted).of_eq
              intro names
              simp [Kind.Repetition.program, uncounted]
              rfl
          | false =>
              have passes : Event.generatesSubEvents
                  ⟨id, .repetition repetition, false, folded, remembered⟩ = true :=
                congrArg (!·) uncounted
              have passedAll := Bool.and_eq_true_iff.mpr ⟨passes, passed⟩
              have inner : Leaves.OfSubEvents settings population _ current _ _ _ :=
                nodes.ofSubEvents passedAll blocks
              have generated := inner.generateRepetition repetition uncounted
              rw [Lineage.reports_counted uncounted, Diagnostic.allAttributed_append,
                List.append_assoc]
              apply generated.of_eq
              intro names
              simp [Kind.Repetition.program, uncounted]
              rfl
      | comment comment =>
          rw [stopped rfl]
          exact Leaves.pure ""
      | link link =>
          rw [stopped rfl]
          exact Leaves.pure ""

end LeavesNodes

mutual
theorem Node.leaves : ∀ (node : Node Kind.Builtin) (ancestors : List (Event Kind.Builtin))
    (current : Option NodeId), ancestors.all Event.generatesSubEvents = true →
    Leaves (Event.blocks ancestors) current
      (node.generate (Program.generator settings population))
      (BlockProgram.bound <$> node.program settings population (Event.blocks ancestors))
      (Diagnostic.allAttributed current (Lineage.reports settings ⟨ancestors, node⟩) ++
        (Program.reachedLineages settings (node.event :: ancestors) node.subEvents).flatMap
          (Lineage.problems settings population))
  | ⟨event, subEvents⟩, ancestors, _, passed =>
      (Forest.leaves subEvents (event :: ancestors)).generateNode passed

theorem Forest.leaves : ∀ (forest : List (Node Kind.Builtin))
    (ancestors : List (Event Kind.Builtin)), LeavesNodes settings population ancestors forest
  | [], _ => fun _ _ _ => (Leaves.pure "").of_eq fun _ => rfl
  | head :: tail, ancestors => by
      intro current passed within
      let id := head.event.sourceId population
      have first : Leaves _ current (Program.whileCompiling id _) _ _ :=
        (Node.leaves head ancestors (some id) passed).whileCompiling
      have rest := Forest.leaves tail ancestors current passed within
      rw [Program.reachedLineages_cons passed within, List.cons_append, List.flatMap_cons,
        List.flatMap_append, ← List.append_assoc]
      apply (first.bind fun code => rest.map fun rest =>
        (if code.isEmpty then ""
          else Program.withHooks settings.profiling.emitHooks id code) ++ rest).of_eq
      intro names
      let own := head.program settings population (Event.blocks ancestors) names
      let others := Forest.programs settings population (Event.blocks ancestors) tail own.2
      have names := BlockProgram.bound_append
        (own.1.withHooks settings.profiling.emitHooks id) others.1
      rw [BlockProgram.bound_withHooks] at names
      exact congrArg (·, others.2) names.symm
end

/-- Generating a forest in a fresh scope declares the names its program binds outside of all
nested blocks, and reports the problems of the nodes reached, in order. -/
theorem Forest.generate_leaves (settings : Settings) (population : Population)
    (forest : Forest Kind.Builtin) (state : ProgramState) :
    (Forest.generate (Program.generator settings population) forest
        { generator := state }).2.scope.declared =
      (Forest.program settings population forest).bound ∧
    (Forest.generate (Program.generator settings population) forest
        { generator := state }).2.generator =
      { state with
        diagnostics := state.diagnostics ++
          (Program.reachedLineages settings [] forest).flatMap
            (Lineage.problems settings population) } := by
  have nodes : LeavesNodes settings population [] forest := Forest.leaves forest []
  have generated : Leaves _ state.current _ _ _ := nodes.generateForest rfl
  rcases generated { generator := state } rfl rfl Scope.tidy_fresh with ⟨_, _, scope, generator⟩
  constructor
  · exact congrArg Scope.declared scope
  · exact generator

end

end EventSheet
