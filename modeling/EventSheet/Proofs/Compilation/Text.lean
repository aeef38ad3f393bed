import EventSheet.Proofs.Compilation.Emission
import EventSheet.Proofs.Compilation.NestedText
namespace EventSheet

/-! # The emitted text

What the program generator emits for a forest is the text of the block program of that forest:
the flat text, or the nested one when it is given a unit of indentation. -/

open Codegen

/-! ## Calls -/

theorem BlockProgram.Operand.print_negatedWhen (inverted : Bool)
    (operand : BlockProgram.Operand) :
    (operand.negatedWhen inverted).print = Codegen.negatedWhen inverted operand.print := by
  cases inverted <;> rfl

mutual
theorem Instruction.result_renderCall : ∀ instruction : Instruction,
    (renderCall instruction).result = instruction.operand?.map BlockProgram.Operand.print
  | ⟨name, parameters, inverted, nested⟩ => by
      have inside := Instruction.result_renderOperands nested
      rw [renderCall, Instruction.operand?]
      by_cases blank : Text.isBlankText name
      · rw [if_pos blank, if_pos blank, Option.map_none]
      · rw [if_neg blank, if_neg blank]
        simp only [inside, Option.map_map]
        rfl

theorem Instruction.result_renderOperands : ∀ instructions : List Instruction,
    (renderOperands instructions).result =
      (Instruction.operands? instructions).map BlockProgram.Operand.printAll
  | [] => rfl
  | head :: tail => by
      have first := head.result_renderCall
      have rest := Instruction.result_renderOperands tail
      rw [renderOperands, Instruction.operands?]
      cases called : head.operand? with
      | none =>
          rw [called, Option.map_none] at first
          simp only [first, Option.map_none]
      | some operand =>
          rw [called, Option.map_some] at first
          simp only [first, rest]
          cases Instruction.operands? tail with
          | none => rfl
          | some operands =>
              simp only [Option.map_some, BlockProgram.Operand.printAll,
                BlockProgram.Operand.print_negatedWhen]
end

theorem Instruction.operand_renderCondition (condition : Instruction) :
    Program.operand (renderCondition condition) = condition.condition.print := by
  rw [Program.operand, renderCondition, Instruction.condition]
  simp only [condition.result_renderCall]
  cases condition.operand? with
  | none => rfl
  | some operand =>
      rw [Option.map_some, Option.map_some, Option.getD_some,
        BlockProgram.Operand.print_negatedWhen]

theorem InstructionList.flagExpression_eq (conditions : InstructionList) :
    Program.flagExpression (conditions.map renderCondition) =
      BlockProgram.printConjunction (InstructionList.operands conditions) := by
  have texts : (conditions.map renderCondition).map Program.operand =
      BlockProgram.Operand.printAll (InstructionList.operands conditions) := by
    rw [BlockProgram.Operand.printAll_eq_map, InstructionList.operands, List.map_map,
      List.map_map]
    exact List.map_congr_left fun condition _ => condition.operand_renderCondition
  rw [Program.flagExpression, BlockProgram.printConjunction, texts, InstructionList.operands,
    List.isEmpty_map, List.isEmpty_map]

theorem InstructionList.join_calls (actions : InstructionList) :
    String.join (((actions.map renderCall).filterMap Rendered.result).map Program.statement) =
      BlockProgram.print (InstructionList.statements actions) := by
  induction actions with
  | nil => rfl
  | cons head tail induction =>
      have first := head.result_renderCall
      rw [InstructionList.statements] at induction ⊢
      cases called : head.operand? with
      | none =>
          rw [called, Option.map_none] at first
          rw [List.map_cons, List.filterMap_cons_none first, List.filterMap_cons_none called,
            induction]
      | some operand =>
          rw [called, Option.map_some] at first
          rw [List.map_cons, List.filterMap_cons_some first, List.filterMap_cons_some called,
            List.map_cons, List.map_cons, String.join_cons, induction, BlockProgram.print]
          rfl

/-! ## Lists -/

/-- The text is that of the program, its blocks indented by the unit. -/
def Prints (unit : String) (program : BlockProgram) (text : String) : Prop :=
  text = BlockProgram.printNested unit program

section

variable {depth : Nat} {unit : String}

theorem InstructionList.printNested_statements (actions : InstructionList) :
    BlockProgram.printNested unit (InstructionList.statements actions) =
      BlockProgram.print (InstructionList.statements actions) := by
  rw [InstructionList.statements]
  induction actions.filterMap Instruction.operand? with
  | nil => rfl
  | cons head tail induction =>
      rw [List.map_cons, BlockProgram.printNested, induction, BlockProgram.print]
      rfl

theorem Emits.compileConditions (conditions : InstructionList) :
    Emits depth (Program.compileConditions conditions) Naming.flag fun flag compiled =>
      compiled = ⟨(BlockProgram.Statement.bindFlag flag
        (InstructionList.operands conditions)).print, flag⟩ := by
  rw [← bind_pure Naming.flag]
  apply Emits.bind Emits.flag
  intro flag _ same
  subst same
  apply Emits.following (Emits.declare flag)
  intro _ _
  apply Emits.following (Emits.onGenerator _)
  intro _ _
  apply Emits.pure
  rw [InstructionList.flagExpression_eq, Program.bindFlag, BlockProgram.Statement.print]

theorem Emits.compileActions (unit : String) (actions : InstructionList) :
    Emits depth (Program.compileActions actions) (Pure.pure (InstructionList.statements actions))
      (Prints unit) := by
  apply Emits.following (Emits.onGenerator _)
  intro _ _
  apply Emits.pure
  rw [Prints, InstructionList.join_calls, InstructionList.printNested_statements]

end

/-! ## Events -/

theorem BlockProgram.Statement.printNested_guarded (unit flag : String) (body : BlockProgram) :
    (conditional flag body .done).printNested unit =
      Codegen.block (GuardedBlock.guardHeader .all [flag]) (BlockProgram.printNested unit body)
        unit := by
  have header : GuardedBlock.guardHeader .all [flag] ++ "\x7b\n" = "if " ++ flag ++ " \x7b\n" := by
    rw [GuardedBlock.guardHeader, List.isEmpty_cons, if_neg Bool.false_ne_true,
      String.intercalate_singleton, String.append_assoc]
    rfl
  rw [printNested, Alternative.printNested, Codegen.block, header]

theorem BlockProgram.Statement.printNested_loop (unit counter : String) (body : BlockProgram) :
    (loop counter body).printNested unit =
      Codegen.block (Kind.Repetition.loopHeader counter) (BlockProgram.printNested unit body)
        unit := by
  have header : Kind.Repetition.loopHeader counter ++ "\x7b\n" =
      "for _ in 0.." ++ counter ++ " \x7b\n" := by
    rw [Kind.Repetition.loopHeader, String.append_assoc]
    rfl
  rw [printNested, Codegen.block, header]

theorem BlockProgram.printNested_nested (unit : String) (program : BlockProgram) :
    BlockProgram.printNested unit program.nested =
      if (BlockProgram.printNested unit program).isEmpty then ""
      else Codegen.block "" (BlockProgram.printNested unit program) unit := by
  rw [isEmpty_printNested, nested]
  cases program with
  | nil => rfl
  | cons head tail => exact printNested_singleton unit (.block (head :: tail))

section

variable {depth : Nat} (settings : Settings) (population : Population) (unit : String)

/-- The program generator, as what events call. -/
abbrev Codegen.Program.emitter : Emitter ProgramState :=
  (Program.generator (β := Kind.Builtin) settings population).toEmitter

/-- The program generator with a unit of indentation for nested fragments. -/
abbrev Codegen.Program.nesting : Generator Kind.Builtin ProgramState :=
  { Program.generator settings population with indentUnit := unit }

abbrev Codegen.Program.nestingEmitter : Emitter ProgramState :=
  (Program.nesting settings population unit).toEmitter

theorem Emits.compileActionList (actions : InstructionList) :
    Emits depth
      (GuardedBlock.compileActions (Program.nestingEmitter settings population unit) [actions])
      (Pure.pure (InstructionList.statements actions)) (Prints unit) := by
  have nothing : Emits depth
      (GuardedBlock.compileActions (Program.nestingEmitter settings population unit) [])
      (Pure.pure ()) fun _ text => text = "" := Emits.pure rfl
  apply Emits.following (Emits.compileActions unit actions)
  intro text isText
  apply Emits.following nothing
  intro rest isRest
  apply Emits.pure
  rw [Prints, isText, isRest, String.append_empty]

/-- Actions and nothing below them. -/
theorem Emits.generateActions (actions : InstructionList) :
    Emits depth (GuardedBlock.generateBody { actions := [actions] }
        (Program.nestingEmitter settings population unit))
      (Pure.pure (InstructionList.statements actions)) (Prints unit) := by
  have nothing : Emits depth
      (GuardedBlock.compileSubEvents (Program.nestingEmitter settings population unit) none)
      (Pure.pure ()) fun _ text => text = "" := Emits.pure rfl
  apply Emits.following (Emits.compileActionList settings population unit actions)
  intro text isText
  apply Emits.following nothing
  intro rest isRest
  apply Emits.pure
  rw [Prints, isText, isRest, String.append_empty]

theorem Emits.compileNoConditions :
    Emits depth
      (GuardedBlock.compileConditions (Program.nestingEmitter settings population unit) [])
      (Pure.pure ()) fun _ compiled => compiled = [] :=
  Emits.pure rfl

theorem Emits.compileConditionList (conditions : InstructionList) :
    Emits depth
      (GuardedBlock.compileConditions (Program.nestingEmitter settings population unit)
        [conditions])
      Naming.flag fun flag compiled =>
        compiled = [⟨(BlockProgram.Statement.bindFlag flag
          (InstructionList.operands conditions)).print, flag⟩] := by
  rw [← bind_pure Naming.flag]
  apply Emits.bind (Emits.compileConditions conditions)
  intro flag compiled isCompiled
  apply Emits.following (Emits.compileNoConditions settings population unit)
  intro rest isRest
  apply Emits.pure
  rw [isCompiled, isRest]

/-- What compiles the sub-events of a node, if it has any. -/
def EmitsSubEvents (depth : Nat) (subEvents : Option (Emit ProgramState String))
    (naming : Naming BlockProgram) : Prop :=
  Emits depth
    (GuardedBlock.compileSubEvents (Program.nestingEmitter settings population unit) subEvents)
    naming fun program text => text = BlockProgram.printNested unit program.nested

variable {settings population unit}

theorem EmitsSubEvents.of_forest {nodes : List (Node Kind.Builtin × Emit ProgramState String)}
    {naming : Naming BlockProgram}
    (inner : Emits (depth + 1) (Program.compileForest settings population nodes) naming
      (Prints unit)) :
    EmitsSubEvents settings population unit depth
      (some (Program.compileForest settings population nodes)) naming := by
  rw [EmitsSubEvents, ← bind_pure naming]
  apply Emits.bind inner.nested
  intro program text isText
  apply Emits.pure
  rw [isText, BlockProgram.printNested_nested]

theorem EmitsSubEvents.generateBody {subEvents : Option (Emit ProgramState String)}
    {naming : Naming BlockProgram}
    (inner : EmitsSubEvents settings population unit depth subEvents naming)
    (actions : InstructionList) :
    Emits depth (GuardedBlock.generateBody { actions := [actions], subEvents }
        (Program.nestingEmitter settings population unit))
      naming fun program text =>
        Prints unit (InstructionList.statements actions ++ program.nested) text := by
  apply Emits.following (Emits.compileActionList settings population unit actions)
  intro text isText
  rw [← bind_pure naming]
  apply Emits.bind inner
  intro program rest isRest
  apply Emits.pure
  rw [Prints, isText, isRest, BlockProgram.printNested_append]

theorem EmitsSubEvents.generateStandard {subEvents : Option (Emit ProgramState String)}
    {naming : Naming BlockProgram}
    (inner : EmitsSubEvents settings population unit depth subEvents naming)
    (standard : Kind.Standard) :
    Emits depth (standard.generate (Program.nestingEmitter settings population unit) subEvents)
      (standard.program naming) (Prints unit) := by
  apply Emits.bind (Emits.compileConditionList settings population unit standard.conditions)
  intro flag compiled isCompiled
  apply Emits.bind (inner.generateBody standard.actions)
  intro program body isBody
  apply Emits.pure
  rw [Prints, isBody, isCompiled, BlockProgram.printNested, BlockProgram.printNested_singleton,
    BlockProgram.Statement.printNested_guarded, List.map_singleton, String.join_cons,
    String.join_nil, String.append_empty]
  rfl

theorem EmitsSubEvents.generateRepetition {subEvents : Option (Emit ProgramState String)}
    {naming : Naming BlockProgram}
    (inner : EmitsSubEvents settings population unit (depth + 1) subEvents naming)
    (repetition : Kind.Repetition) :
    Emits depth (repetition.generate (Program.nestingEmitter settings population unit) subEvents)
      (repetition.program naming) (Prints unit) := by
  rw [Kind.Repetition.generate, Kind.Repetition.program]
  by_cases blank : repetition.count.isEmpty
  · rw [if_pos blank, if_pos blank]
    apply Emits.following (Emits.onGenerator _)
    intro _ _
    exact Emits.pure rfl
  · rw [if_neg blank, if_neg blank]
    apply Emits.bind Emits.counter
    intro counter _ same
    subst same
    apply Emits.following (Emits.declare counter)
    intro _ _
    have body := inner.generateStandard ⟨repetition.conditions, repetition.actions⟩
    apply Emits.bind body.nested
    intro program text isText
    apply Emits.pure
    rw [Prints, isText, BlockProgram.printNested, BlockProgram.printNested_singleton,
      BlockProgram.Statement.printNested_loop]
    rfl

/-! The arms of a branch. -/

def compiledArm (named : Kind.BranchArm × String) : CompiledConditions :=
  ⟨(Kind.Branch.bindArm named).print, named.2⟩

theorem Emits.compileArms (arms : List Kind.BranchArm) :
    Emits depth
      (GuardedBlock.compileConditions (Program.nestingEmitter settings population unit)
        (arms.map Kind.BranchArm.conditions))
      (Kind.Branch.nameArms arms) fun named compiled =>
        named.map Prod.fst = arms ∧ compiled = named.map compiledArm := by
  induction arms with
  | nil => exact Emits.pure ⟨rfl, rfl⟩
  | cons arm rest induction =>
      apply Emits.bind (Emits.compileConditions arm.conditions)
      intro flag compiled isCompiled
      apply Emits.bind induction
      intro named others isOthers
      apply Emits.pure
      rcases isOthers with ⟨sameArms, areOthers⟩
      constructor
      · rw [List.map_cons, sameArms]
      · rw [List.map_cons, areOthers, isCompiled]
        rfl

open Kind.Branch in
theorem Emits.generateArm {otherwise : InstructionList}
    {rest : List (Kind.BranchArm × String)}
    (later : Emits depth
      (generateArms (Program.nestingEmitter settings population unit) false
        ((rest.map Prod.fst).zip (rest.map compiledArm)))
      (Pure.pure ()) fun _ text =>
        text ++ (alternative otherwise []).printNested unit =
          (alternative otherwise rest).printNested unit)
    (isFirst : Bool) (arm : Kind.BranchArm) (flag : String) :
    Emits depth
      (generateArms (Program.nestingEmitter settings population unit) isFirst
        ((arm, compiledArm (arm, flag)) :: (rest.map Prod.fst).zip (rest.map compiledArm)))
      (Pure.pure ()) fun _ text =>
        text ++ (alternative otherwise []).printNested unit =
          armHeader isFirst flag ++
            Text.indent (BlockProgram.printNested unit (InstructionList.statements arm.actions))
              unit ++
              (alternative otherwise rest).printNested unit := by
  apply Emits.following (Emits.generateActions settings population unit arm.actions)
  intro body isBody
  apply Emits.following later
  intro text isText
  apply Emits.pure
  rw [String.append_assoc, isText, isBody]
  rfl

open Kind.Branch in
/-- The arms behind the first, up to what closes the last one. -/
theorem Emits.generateLaterArms (otherwise : InstructionList)
    (named : List (Kind.BranchArm × String)) :
    Emits depth
      (generateArms (Program.nestingEmitter settings population unit) false
        ((named.map Prod.fst).zip (named.map compiledArm)))
      (Pure.pure ()) fun _ text =>
        text ++ (alternative otherwise []).printNested unit =
          (alternative otherwise named).printNested unit := by
  induction named with
  | nil => exact Emits.pure String.empty_append
  | cons first rest induction => exact Emits.generateArm induction false first.1 first.2

open Kind.Branch in
theorem Emits.generateOtherwise (otherwise : InstructionList) :
    Emits depth (generateOtherwise (Program.nestingEmitter settings population unit) otherwise)
      (Pure.pure ()) fun _ text =>
        text ++ "\x7d\n" = (alternative otherwise []).printNested unit := by
  rw [Kind.Branch.generateOtherwise, alternative]
  by_cases empty : otherwise.isEmpty
  · rw [if_pos empty, if_pos empty]
    exact Emits.pure rfl
  · rw [if_neg empty, if_neg empty]
    apply Emits.following (Emits.generateActions settings population unit otherwise)
    intro body isBody
    apply Emits.pure
    rw [isBody]
    rfl

/-- Without conditions there is a block without a header. -/
theorem Emits.generateUnguarded (actions : InstructionList) :
    Emits depth (GuardedBlock.generate { actions := [actions] }
        (Program.nestingEmitter settings population unit))
      (Pure.pure [.block (InstructionList.statements actions)]) (Prints unit) := by
  apply Emits.following (Emits.compileNoConditions settings population unit)
  intro compiled isCompiled
  apply Emits.following (Emits.generateActions settings population unit actions)
  intro body isBody
  apply Emits.pure
  rw [Prints, isBody, isCompiled, BlockProgram.printNested_singleton]
  rfl

theorem Emits.generateArmless (otherwise : InstructionList) :
    Emits depth
      (Kind.Branch.generate ⟨[], otherwise⟩ (Program.nestingEmitter settings population unit))
      (Kind.Branch.program ⟨[], otherwise⟩) (Prints unit) := by
  change Emits depth
    (if otherwise.isEmpty then return "" else
      GuardedBlock.generate { actions := [otherwise] }
        (Program.nestingEmitter settings population unit))
    (Pure.pure (if otherwise.isEmpty then []
      else [.block (InstructionList.statements otherwise)])) (Prints unit)
  by_cases empty : otherwise.isEmpty
  · rw [if_pos empty, if_pos empty]
    exact Emits.pure rfl
  · rw [if_neg empty, if_neg empty]
    exact Emits.generateUnguarded otherwise

theorem Kind.Branch.printNested_bindings (unit : String) (named : List (BranchArm × String)) :
    String.join ((named.map compiledArm).map CompiledConditions.code) =
      BlockProgram.printNested unit (named.map bindArm) := by
  induction named with
  | nil => rfl
  | cons first rest induction =>
      rw [List.map_cons, List.map_cons, String.join_cons, induction, List.map_cons,
        BlockProgram.printNested]
      rfl

open Kind.Branch in
theorem Emits.generateBranch (branch : Kind.Branch) :
    Emits depth (branch.generate (Program.nestingEmitter settings population unit))
      branch.program (Prints unit) := by
  rcases branch with ⟨arms, otherwise⟩
  cases arms with
  | nil => exact Emits.generateArmless otherwise
  | cons head tail =>
      rw [Kind.Branch.generate, List.isEmpty_cons, if_neg Bool.false_ne_true]
      apply Emits.bind (Emits.compileArms (head :: tail))
      intro named compiled isCompiled
      rcases isCompiled with ⟨sameArms, areCompiled⟩
      cases named with
      | nil => cases sameArms
      | cons first rest =>
          rcases first with ⟨arm, flag⟩
          -- the arms the generator pairs with flags are those that were named
          have arms : (head :: tail).zip compiled =
              (arm, compiledArm (arm, flag)) ::
                (rest.map Prod.fst).zip (rest.map compiledArm) := by
            rw [← sameArms, areCompiled]
            rfl
          rw [arms]
          apply Emits.following
            (Emits.generateArm (Emits.generateLaterArms otherwise rest) true arm flag)
          intro text isText
          apply Emits.following (Emits.generateOtherwise otherwise)
          intro ending isEnding
          apply Emits.pure
          rw [Prints, areCompiled, Kind.Branch.printNested_bindings unit, String.append_assoc,
            String.append_assoc, isEnding, isText, assemble, BlockProgram.printNested_append,
            BlockProgram.printNested_singleton]
          rfl

/-! ## Forests -/

theorem Emits.whileCompiling {action : Emit ProgramState String} {naming : Naming BlockProgram}
    {Shows : BlockProgram → String → Prop} (emits : Emits depth action naming Shows)
    (node : NodeId) : Emits depth (Program.whileCompiling node action) naming Shows := by
  intro emission atDepth
  let generator := { emission.generator with current := some node }
  exact emits { emission with generator } atDepth

theorem BlockProgram.printNested_hook (unit name : String) (node : NodeId) :
    (hook name node).printNested unit = Program.hook name node := by
  rw [hook, Statement.printNested, Statement.print, Operand.print, Operand.printAll,
    List.append_nil,
    String.intercalate_singleton, Program.hook, String.append_assoc]
  rfl

theorem BlockProgram.printNested_withHooks (unit : String) (emitHooks : Bool)
    (node : NodeId) (program : BlockProgram) :
    BlockProgram.printNested unit (program.withHooks emitHooks node) =
      if (BlockProgram.printNested unit program).isEmpty then ""
      else Program.withHooks emitHooks node (BlockProgram.printNested unit program) := by
  rw [isEmpty_printNested, withHooks, Program.withHooks]
  cases program with
  | nil => rfl
  | cons head tail =>
      cases emitHooks with
      | false => rfl
      | true =>
          rw [List.isEmpty_cons, if_neg Bool.false_ne_true, if_neg Bool.false_ne_true,
            if_pos rfl, if_pos rfl, List.cons_append, printNested, printNested_append,
            printNested_singleton, printNested_hook, printNested_hook, String.append_assoc]

theorem Emits.compileForest {nodes : List (Node Kind.Builtin × Emit ProgramState String)}
    {naming : Naming BlockProgram}
    (emits : Emits depth (Program.compileNodes settings.profiling.emitHooks population nodes)
      naming (Prints unit)) :
    Emits depth (Program.compileForest settings population nodes)
      (Naming.within settings.limits.maxNestingDepth.toNat depth naming) (Prints unit) := by
  intro emission atDepth
  -- the depth is read off the scope, so the limit is decided before anything is emitted
  have applied : Program.compileForest settings population nodes emission =
      (if settings.limits.maxNestingDepth.toNat < depth then do
        Program.reportAll [Program.nestedTooDeeply (Forest.count (nodes.map Prod.fst))
          settings.limits.maxNestingDepth.toNat]
        return ""
      else Program.compileNodes settings.profiling.emitHooks population nodes) emission := by
    rw [← atDepth, ← Forest.countNodes_eq_count]
    rfl
  rw [applied, Naming.within]
  by_cases tooDeep : settings.limits.maxNestingDepth.toNat < depth
  · rw [if_pos tooDeep, if_pos tooDeep]
    exact ⟨rfl, rfl, atDepth⟩
  · rw [if_neg tooDeep, if_neg tooDeep]
    exact emits emission atDepth

theorem EmitsSubEvents.of_nodes {subEvents : List (Node Kind.Builtin)}
    (emits : Emits (depth + 1)
      (Program.compileNodes settings.profiling.emitHooks population
        (Forest.generators (Program.nesting settings population unit) subEvents))
      (Forest.programs settings population (depth + 1) subEvents) (Prints unit)) :
    EmitsSubEvents settings population unit depth
      (if (Forest.generators (Program.nesting settings population unit) subEvents).isEmpty then none
        else some (Forest.generate (Program.nesting settings population unit) subEvents))
      (Naming.within settings.limits.maxNestingDepth.toNat (depth + 1)
        (Forest.programs settings population (depth + 1) subEvents)) := by
  cases subEvents with
  | nil =>
      rw [Forest.generators, List.isEmpty_nil, if_pos rfl, Forest.programs, Naming.within, ite_self]
      exact Emits.pure rfl
  | cons head tail =>
      rw [Forest.generators, List.isEmpty_cons, if_neg Bool.false_ne_true]
      exact EmitsSubEvents.of_forest (Emits.compileForest emits)

mutual
/-- A node emits the text of its statements. -/
theorem Node.emits (depth : Nat) : ∀ node : Node Kind.Builtin,
    Emits depth (node.generate (Program.nesting settings population unit))
      (node.program settings population depth) (Prints unit)
  | ⟨⟨id, behavior, disabled, folded, remembered⟩, subEvents⟩ => by
      rw [Node.generate, Node.program]
      cases disabled with
      | true => exact Emits.pure rfl
      | false =>
          cases behavior with
          | standard standard =>
              have inner := EmitsSubEvents.of_nodes (Forest.emits (depth + 1) subEvents)
              exact inner.generateStandard standard
          | branch branch => exact Emits.generateBranch branch
          | repetition repetition =>
              have inner := EmitsSubEvents.of_nodes (Forest.emits (depth + 1 + 1) subEvents)
              exact inner.generateRepetition repetition
          | comment comment => exact Emits.pure rfl
          | link link => exact Emits.pure rfl

theorem Forest.emits (depth : Nat) : ∀ nodes : List (Node Kind.Builtin),
    Emits depth
      (Program.compileNodes settings.profiling.emitHooks population
        (Forest.generators (Program.nesting settings population unit) nodes))
      (Forest.programs settings population depth nodes) (Prints unit)
  | [] => Emits.pure rfl
  | head :: tail => by
      rw [Forest.generators, Program.compileNodes, Forest.programs]
      apply Emits.bind ((head.emits depth).whileCompiling _)
      intro program code isCode
      apply Emits.bind (Forest.emits depth tail)
      intro others rest isRest
      apply Emits.pure
      rw [Prints, BlockProgram.printNested_append, BlockProgram.printNested_withHooks, isCode,
        isRest]
end

/-- With a unit of indentation the generator emits the nested text of the block program. -/
theorem Forest.generate_eq_printNested (settings : Settings) (population : Population)
    (unit : String) (forest : Forest Kind.Builtin) (state : ProgramState) :
    (Forest.generate (Program.nesting settings population unit) forest
        { generator := state }).1 =
      BlockProgram.printNested unit (Forest.program settings population forest) := by
  have emits : Emits 0 (Program.compileForest settings population _) _ (Prints unit) :=
    Emits.compileForest (Forest.emits 0 forest)
  exact (emits { generator := state } rfl).1

/-- The body of the generated function is the text of the block program. -/
theorem Forest.generate_eq_print (settings : Settings) (population : Population)
    (forest : Forest Kind.Builtin) (state : ProgramState) :
    (Forest.generate (Program.generator settings population) forest { generator := state }).1 =
      BlockProgram.print (Forest.program settings population forest) := by
  rw [← BlockProgram.printNested_empty]
  exact Forest.generate_eq_printNested settings population "" forest state

end

end EventSheet
