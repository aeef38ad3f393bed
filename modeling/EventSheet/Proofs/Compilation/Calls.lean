import EventSheet.Proofs.Compilation.Effects
import EventSheet.Proofs.Compilation.Reading
namespace EventSheet

/-! # What becomes of instructions

An instruction becomes a call when it and all that are nested in it have names. Otherwise it is left
out, and the first one without a name is reported; parameters left blank on the way there are
reported too. So what is missing from the generated code can be counted in the problems. -/

open Codegen

/-! ## The instructions of a tree -/

mutual
/-- An instruction and all that are nested in it, each in front of those nested in it. -/
def Instruction.parts : Instruction → List Instruction
  | ⟨name, parameters, inverted, nested⟩ =>
      ⟨name, parameters, inverted, nested⟩ :: Instruction.partsOfAll nested

def Instruction.partsOfAll : List Instruction → List Instruction
  | [] => []
  | head :: tail => head.parts ++ Instruction.partsOfAll tail
end

mutual
theorem Instruction.isCallable_eq : ∀ instruction : Instruction,
    instruction.isCallable = instruction.parts.all fun part => !part.isNameless
  | ⟨name, parameters, inverted, nested⟩ => by
      rw [isCallable, parts, List.all_cons, Instruction.allCallable_eq nested, isNameless]

theorem Instruction.allCallable_eq : ∀ instructions : List Instruction,
    Instruction.allCallable instructions =
      (Instruction.partsOfAll instructions).all fun part => !part.isNameless
  | [] => rfl
  | head :: tail => by
      rw [Instruction.allCallable, Instruction.partsOfAll, List.all_append, head.isCallable_eq,
        Instruction.allCallable_eq tail]
end

mutual
theorem Instruction.expressions_eq : ∀ instruction : Instruction,
    instruction.expressions = instruction.parts.flatMap Instruction.parameters
  | ⟨name, parameters, inverted, nested⟩ => by
      rw [expressions, parts, List.flatMap_cons, Instruction.expressionsOfAll_eq nested]

theorem Instruction.expressionsOfAll_eq : ∀ instructions : List Instruction,
    Instruction.expressionsOfAll instructions =
      (Instruction.partsOfAll instructions).flatMap Instruction.parameters
  | [] => rfl
  | head :: tail => by
      rw [Instruction.expressionsOfAll, Instruction.partsOfAll, List.flatMap_append,
        head.expressions_eq, Instruction.expressionsOfAll_eq tail]
end

namespace Instruction

/-- The parts in front of the first one without a name. -/
def partsMet (parts : List Instruction) : List Instruction :=
  parts.takeWhile fun part => !part.isNameless

/-- One warning for each parameter of its own that is blank, at the position of the parameter. -/
def blankWarnings (instruction : Instruction) : List Diagnostic :=
  (instruction.parameters.zipIdx.filter fun parameter => parameter.1.isEmpty).map
    fun parameter => emptyParameter parameter.2 instruction.name

end Instruction

mutual
/-- The call of an instruction: its parameters in their positions, the blank ones replaced by the
default value, then the calls nested in it, negated where they are inverted. -/
def Instruction.callText : Instruction → String
  | ⟨name, parameters, _, nested⟩ =>
      Codegen.callText name (parameters.map argument ++ Instruction.conditionTexts nested)

def Instruction.conditionTexts : List Instruction → List String
  | [] => []
  | head :: tail =>
      negatedWhen head.inverted head.callText :: Instruction.conditionTexts tail
end

/-- What a condition of its own is evaluated as; one that cannot be called never holds. -/
def Instruction.conditionText (condition : Instruction) : String :=
  if condition.isCallable then negatedWhen condition.inverted condition.callText else "false"

/-! ## Rendering -/

theorem Codegen.parameterWarnings_eq (name : String) (position : Nat)
    (parameters : List Expression) :
    parameterWarnings name position parameters =
      ((parameters.zipIdx position).filter fun parameter => parameter.1.isEmpty).map
        fun parameter => emptyParameter parameter.2 name := by
  induction parameters generalizing position with
  | nil => rfl
  | cons head tail induction =>
      rw [parameterWarnings, induction, List.zipIdx_cons, List.filter_cons]
      split <;> rfl

/-- What is reported about the parts of a tree: what is blank in those that are met, and the first
one without a name. -/
def Codegen.reportsOf (parts : List Instruction) : List Diagnostic :=
  (Instruction.partsMet parts).flatMap Instruction.blankWarnings ++
    if parts.all fun part => !part.isNameless then [] else [namelessInstruction]

theorem Codegen.reportsOf_cons (part : Instruction) (rest : List Instruction) :
    reportsOf (part :: rest) =
      if part.isNameless then [namelessInstruction] else part.blankWarnings ++ reportsOf rest := by
  cases nameless : part.isNameless with
  | true => simp [reportsOf, Instruction.partsMet, nameless]
  | false => simp [reportsOf, Instruction.partsMet, nameless]

theorem Codegen.reportsOf_of_all {parts : List Instruction}
    (named : (parts.all fun part => !part.isNameless) = true) :
    reportsOf parts = parts.flatMap Instruction.blankWarnings := by
  induction parts with
  | nil => rfl
  | cons head tail induction =>
      rw [List.all_cons, Bool.and_eq_true, Bool.not_eq_true'] at named
      rw [reportsOf_cons, named.1, if_neg Bool.false_ne_true, induction named.2, List.flatMap_cons]

theorem Codegen.reportsOf_append (first second : List Instruction) :
    reportsOf (first ++ second) =
      if first.all fun part => !part.isNameless then reportsOf first ++ reportsOf second
      else reportsOf first := by
  induction first with
  | nil => rfl
  | cons head tail induction =>
      rw [List.cons_append, reportsOf_cons, reportsOf_cons, induction, List.all_cons]
      cases head.isNameless with
      | true => rfl
      | false =>
          simp only [Bool.not_false, Bool.true_and, Bool.false_eq_true, if_false]
          split
          · rw [List.append_assoc]
          · rfl

mutual
theorem Instruction.renderCall_eq : ∀ instruction : Instruction,
    renderCall instruction =
      { result := if instruction.isCallable then some instruction.callText else none
        reports := reportsOf instruction.parts }
  | ⟨name, parameters, inverted, nested⟩ => by
      have inside := Instruction.renderOperands_eq nested
      rw [renderCall, inside, parts, reportsOf_cons, Instruction.isCallable, isNameless]
      cases Text.isBlankText name with
      | true => rfl
      | false =>
          rw [parameterWarnings_eq]
          cases Instruction.allCallable nested <;> rfl

theorem Instruction.renderOperands_eq : ∀ instructions : List Instruction,
    renderOperands instructions =
      { result := if Instruction.allCallable instructions then
          some (Instruction.conditionTexts instructions) else none
        reports := reportsOf (Instruction.partsOfAll instructions) }
  | [] => rfl
  | head :: tail => by
      have first := head.renderCall_eq
      have rest := Instruction.renderOperands_eq tail
      rw [renderOperands, first, rest, Instruction.partsOfAll, reportsOf_append,
        ← head.isCallable_eq, Instruction.allCallable]
      cases head.isCallable with
      | false => rfl
      | true => cases Instruction.allCallable tail <;> rfl
end

namespace Instruction

theorem isCallable_iff (instruction : Instruction) :
    instruction.isCallable = true ↔ ∀ part ∈ instruction.parts, part.isNameless = false := by
  rw [isCallable_eq, List.all_eq_true]
  simp only [Bool.not_eq_true']

theorem isSome_renderCall (instruction : Instruction) :
    (renderCall instruction).result.isSome = instruction.isCallable := by
  rw [renderCall_eq]
  cases instruction.isCallable <;> rfl

theorem renderCall_cases (instruction : Instruction) :
    renderCall instruction =
      if instruction.isCallable then
        ⟨some instruction.callText, instruction.parts.flatMap blankWarnings⟩
      else
        ⟨none, (partsMet instruction.parts).flatMap blankWarnings ++ [namelessInstruction]⟩ := by
  rw [renderCall_eq]
  have named := instruction.isCallable_eq
  cases callable : instruction.isCallable with
  | true => rw [reportsOf_of_all (named.symm.trans callable), if_pos rfl, if_pos rfl]
  | false =>
      rw [reportsOf, ← named, callable]
      rfl

end Instruction

/-! ## Counting -/

namespace Instruction

theorem length_blankWarnings (instruction : Instruction) :
    instruction.blankWarnings.length =
      (instruction.parameters.filter Expression.isEmpty).length := by
  have positions := congrArg (List.filter Expression.isEmpty)
    (List.zipIdx_map_fst 0 instruction.parameters)
  rw [List.filter_map] at positions
  rw [← positions, List.length_map, blankWarnings, List.length_map]
  rfl

theorem blankWarnings_noError (instruction : Instruction) :
    ∀ report ∈ instruction.blankWarnings, report.isError = false := by
  intro report isReport
  rcases List.mem_map.mp isReport with ⟨parameter, -, rfl⟩
  rfl

/-- There is a warning for each blank parameter of a tree. -/
theorem length_warnings (instruction : Instruction) :
    (instruction.parts.flatMap blankWarnings).length =
      (instruction.expressions.filter Expression.isEmpty).length := by
  rw [expressions_eq]
  induction instruction.parts with
  | nil => rfl
  | cons head tail induction =>
      rw [List.flatMap_cons, List.flatMap_cons, List.length_append, List.filter_append,
        List.length_append, induction, head.length_blankWarnings]

theorem errors_renderCall (instruction : Instruction) :
    (renderCall instruction).reports.filter Diagnostic.isError =
      if instruction.isCallable then [] else [namelessInstruction] := by
  have noError : ((partsMet instruction.parts).flatMap blankWarnings).filter Diagnostic.isError =
      [] := by
    rw [List.filter_eq_nil_iff]
    intro report isReport
    rcases List.mem_flatMap.mp isReport with ⟨part, -, isOwn⟩
    rw [part.blankWarnings_noError report isOwn]
    exact Bool.false_ne_true
  rw [renderCall_eq, isCallable_eq]
  show (reportsOf instruction.parts).filter Diagnostic.isError = _
  rw [reportsOf, List.filter_append, noError, List.nil_append]
  split <;> rfl

/-- A call ends with its closing bracket. -/
theorem getLast?_conditionText {condition : Instruction} (callable : condition.isCallable = true) :
    condition.conditionText.toList.getLast? = some ')' := by
  have closed (front : String) : (front ++ ")").toList.getLast? = some ')' := by
    rw [String.toList_append]
    exact List.getLast?_concat
  rcases condition with ⟨name, parameters, inverted, nested⟩
  rw [conditionText, if_pos callable, callText, Codegen.callText]
  cases inverted with
  | false => exact closed _
  | true =>
      rw [negatedWhen, if_pos rfl, ← String.append_assoc]
      exact closed _

theorem conditionText_eq_false (condition : Instruction) :
    condition.conditionText = "false" ↔ condition.isCallable = false := by
  constructor
  · intro isFalse
    rw [← Bool.not_eq_true]
    intro callable
    have last := getLast?_conditionText callable
    rw [isFalse] at last
    exact absurd last (by decide)
  · intro notCallable
    rw [conditionText, notCallable]
    rfl

theorem conditionText_ne_negated (condition : Instruction) :
    condition.conditionText ≠ "!false" := by
  intro isNegated
  cases callable : condition.isCallable with
  | true =>
      have last := getLast?_conditionText callable
      rw [isNegated] at last
      exact absurd last (by decide)
  | false =>
      rw [(conditionText_eq_false condition).mpr callable] at isNegated
      exact absurd isNegated (by decide)

theorem operand_renderCondition_eq (condition : Instruction) :
    Program.operand (renderCondition condition) = condition.conditionText := by
  rw [Program.operand, renderCondition, renderCall_eq, conditionText]
  split <;> rfl

end Instruction

theorem Diagnostic.length_errors_allAttributed (current : Option NodeId)
    (reports : List Diagnostic) :
    ((allAttributed current reports).filter isError).length = (reports.filter isError).length := by
  rw [allAttributed, List.filter_map, List.length_map]
  rfl

namespace InstructionList

theorem length_errors (instructions : InstructionList) :
    ((instructions.flatMap fun instruction => (renderCall instruction).reports).filter
      Diagnostic.isError).length =
        (instructions.filter fun instruction => !instruction.isCallable).length := by
  induction instructions with
  | nil => rfl
  | cons head tail induction =>
      rw [List.flatMap_cons, List.filter_append, List.length_append, induction,
        head.errors_renderCall, List.filter_cons]
      cases head.isCallable with
      | true => exact Nat.zero_add _
      | false => exact Nat.add_comm 1 _

theorem conditionReports_eq (conditions : InstructionList) :
    conditionReports conditions = conditions.flatMap fun one => (renderCall one).reports :=
  List.flatMap_map ..

theorem actionReports_eq (actions : InstructionList) :
    actionReports actions = actions.flatMap fun one => (renderCall one).reports :=
  List.flatMap_map ..

theorem count_false (conditions : InstructionList) :
    (conditions.map Instruction.conditionText).count "false" =
      (conditions.filter fun condition => !condition.isCallable).length := by
  rw [List.count, List.countP_map, List.countP_eq_length_filter]
  congr 2
  funext condition
  rw [Function.comp_apply, Bool.eq_iff_iff, beq_iff_eq, condition.conditionText_eq_false,
    Bool.not_eq_true']

theorem calls_eq (actions : InstructionList) :
    (actions.map renderCall).filterMap Rendered.result =
      (actions.filter Instruction.isCallable).map Instruction.callText := by
  induction actions with
  | nil => rfl
  | cons head tail induction =>
      rw [List.map_cons, List.filterMap_cons, induction, head.renderCall_eq, List.filter_cons]
      cases head.isCallable <;> rfl

end InstructionList

/-! ## Lists -/

namespace Codegen.Program

/-- A problem for each action that is left out, and a statement for each of the others. -/
theorem compileActions_eq (actions : InstructionList) (emission : Emission ProgramState) :
    compileActions actions emission =
      (String.join ((actions.filter Instruction.isCallable).map fun action =>
          action.callText ++ ";\n"),
        { emission with generator := { emission.generator with
          diagnostics := emission.generator.diagnostics ++
            Diagnostic.allAttributed emission.generator.current actions.actionReports } }) := by
  show (String.join (((actions.map renderCall).filterMap Rendered.result).map statement),
    { emission with generator := emission.generator.reportAll actions.actionReports }) = _
  rw [InstructionList.calls_eq, ProgramState.reportAll_eq, List.map_map]
  rfl

theorem compileConditions_eq (conditions : InstructionList) (emission : Emission ProgramState) :
    (compileConditions conditions emission).1.code =
        bindFlag (compileConditions conditions emission).1.flag
          (if conditions.isEmpty then "true"
            else " && ".intercalate (conditions.map Instruction.conditionText)) ∧
      (compileConditions conditions emission).2.generator = { emission.generator with
        diagnostics := emission.generator.diagnostics ++
          Diagnostic.allAttributed emission.generator.current conditions.conditionReports } := by
  have operands : (conditions.map renderCondition).map operand =
      conditions.map Instruction.conditionText := by
    rw [List.map_map]
    exact List.map_congr_left fun condition _ => condition.operand_renderCondition_eq
  constructor
  · show bindFlag _ (flagExpression (conditions.map renderCondition)) = _
    rw [flagExpression, operands, List.isEmpty_map]
    rfl
  · exact ProgramState.reportAll_eq conditions.conditionReports emission.generator

/-- Nothing is left out without a problem of its own. An instruction becomes a call if and only if
no part of it is without a name; then what is reported is a warning for each blank parameter of the
tree, and otherwise there is one error. So the statements of an action list and its errors are as
many as its actions, and of conditions each comes to one operand, which is `false` where it cannot
be called and for which there is an error then. -/
theorem none_left_out_unreported :
    (∀ instruction : Instruction,
      ((renderCall instruction).result.isSome = true ↔
        ∀ part ∈ instruction.parts, part.isNameless = false) ∧
      renderCall instruction =
        (if instruction.isCallable then
          ⟨some instruction.callText, instruction.parts.flatMap Instruction.blankWarnings⟩
        else
          ⟨none, (Instruction.partsMet instruction.parts).flatMap Instruction.blankWarnings ++
            [namelessInstruction]⟩) ∧
      ((renderCall instruction).reports.filter Diagnostic.isError).length =
        (if instruction.isCallable then 0 else 1) ∧
      (instruction.parts.flatMap Instruction.blankWarnings).length =
        (instruction.expressions.filter Expression.isEmpty).length) ∧
    (∀ (actions : InstructionList) (emission : Emission ProgramState), ∃ statements reports,
      compileActions actions emission = (String.join statements,
        { emission with generator := { emission.generator with
          diagnostics := emission.generator.diagnostics ++ reports } }) ∧
      statements = (actions.filter Instruction.isCallable).map (fun action =>
        action.callText ++ ";\n") ∧
      statements.length + (reports.filter Diagnostic.isError).length = actions.length) ∧
    (∀ (first : Instruction) (rest : InstructionList) (emission : Emission ProgramState),
      ∃ operands reports,
        (compileConditions (first :: rest) emission).1.code =
          "let " ++ (compileConditions (first :: rest) emission).1.flag ++ " = " ++
            " && ".intercalate operands ++ ";\n" ∧
        (compileConditions (first :: rest) emission).2.generator = { emission.generator with
          diagnostics := emission.generator.diagnostics ++ reports } ∧
        operands = (first :: rest).map Instruction.conditionText ∧
        (∀ condition ∈ first :: rest,
          (condition.conditionText = "false" ↔ (renderCall condition).result = none) ∧
            condition.conditionText ≠ "!false") ∧
        (reports.filter Diagnostic.isError).length = operands.count "false") := by
  refine ⟨fun instruction => ⟨?_, ?_, ?_, instruction.length_warnings⟩,
    fun actions emission => ⟨_, _, compileActions_eq actions emission, rfl, ?_⟩,
    fun first rest emission => ?_⟩
  · rw [instruction.isSome_renderCall, instruction.isCallable_iff]
  · exact instruction.renderCall_cases
  · rw [instruction.errors_renderCall]
    split <;> rfl
  · rw [Diagnostic.length_errors_allAttributed, InstructionList.actionReports_eq,
      InstructionList.length_errors, List.length_map]
    exact (List.length_eq_length_filter_add Instruction.isCallable).symm
  · rcases compileConditions_eq (first :: rest) emission with ⟨code, generator⟩
    refine ⟨(first :: rest).map Instruction.conditionText, _, code, generator, rfl,
      fun condition _ => ⟨?_, condition.conditionText_ne_negated⟩, ?_⟩
    · rw [condition.conditionText_eq_false, ← Option.not_isSome_iff_eq_none,
        condition.isSome_renderCall, Bool.not_eq_true]
    · rw [Diagnostic.length_errors_allAttributed, InstructionList.conditionReports_eq,
        InstructionList.length_errors, InstructionList.count_false]

/-- What was met on the way to the instruction without a name is reported, what comes behind it is
not. -/
example :
    renderCall ⟨"any", [⟨" "⟩], false,
      [⟨"near", [⟨"3"⟩, ⟨""⟩], true, []⟩, ⟨" ", [⟨""⟩], false, []⟩, ⟨"far", [⟨""⟩], false, []⟩]⟩ =
      ⟨none, [emptyParameter 0 "any", emptyParameter 1 "near", namelessInstruction]⟩ := by
  rfl

end Codegen.Program

end EventSheet
