import EventSheet.Diagnostic
import EventSheet.Instruction
namespace EventSheet.Codegen

/-! Calls. An instruction becomes a call of its name with its parameters and its
nested instructions as arguments. An instruction without a name cannot be
called, and neither can one that contains such an instruction. -/

def namelessInstruction : Diagnostic :=
  { severity := .error, message := "instruction without a name" }

def emptyParameter (position : Nat) (name : String) : Diagnostic :=
  { severity := .warning
    message := "parameter " ++ Nat.repr position ++ " of `" ++ name ++
      "` is empty, using the default value" }

/-- The argument of a parameter. -/
def argument (parameter : Expression) : String :=
  if parameter.isEmpty then "Default::default()" else parameter.trimmed

/-- One warning per empty parameter, counted from `position`. -/
def parameterWarnings (name : String) (position : Nat) : List Expression → List Diagnostic
  | [] => []
  | head :: tail =>
      if head.isEmpty then
        emptyParameter position name :: parameterWarnings name (position + 1) tail
      else parameterWarnings name (position + 1) tail

def callText (name : String) (arguments : List String) : String :=
  name ++ "(" ++ ", ".intercalate arguments ++ ")"

/-- A call used as a condition. -/
def negatedWhen (inverted : Bool) (call : String) : String :=
  if inverted then "!" ++ call else call

/-- What rendering gives: the text, unless it cannot be called, and the problems
met on the way. -/
structure Rendered (α : Type) where
  result : Option α
  reports : List Diagnostic := []
deriving DecidableEq

mutual
def renderCall : Instruction → Rendered String
  | ⟨name, parameters, _, nested⟩ =>
      if Text.isBlankText name then ⟨none, [namelessInstruction]⟩
      else
        let operands := renderOperands nested
        ⟨operands.result.map fun operands =>
            callText name (parameters.map argument ++ operands),
          parameterWarnings name 0 parameters ++ operands.reports⟩

/-- Conditions as arguments, up to the first that cannot be called. -/
def renderOperands : List Instruction → Rendered (List String)
  | [] => ⟨some [], []⟩
  | head :: tail =>
      let call := renderCall head
      match call.result with
      | none => ⟨none, call.reports⟩
      | some text =>
          let operands := renderOperands tail
          ⟨operands.result.map (negatedWhen head.inverted text :: ·),
            call.reports ++ operands.reports⟩
end

/-- A condition of its own; the call is negated when the condition is
inverted. -/
def renderCondition (instruction : Instruction) : Rendered String :=
  let call := renderCall instruction
  { call with result := call.result.map (negatedWhen instruction.inverted) }

end EventSheet.Codegen
