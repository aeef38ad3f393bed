import EventSheet.Kind.Standard
namespace EventSheet.Kind

/-! The repetition: run a standard event a number of times. Its conditions are
evaluated on every iteration. -/

structure Repetition where
  count : Expression := ⟨""⟩
  conditions : InstructionList := []
  actions : InstructionList := []
deriving DecidableEq

namespace Repetition

def kindName : String := "BuiltinCommonInstructions::Repeat"

open Codegen

def withoutCount : Diagnostic :=
  { severity := .warning, message := "repeat event without a count was not compiled" }

def bindCounter (counter count : String) : String :=
  "let " ++ counter ++ " = (" ++ count ++ ") as usize;\n"

def loopHeader (counter : String) : String := "for _ in 0.." ++ counter ++ " "

/-- The loop body has a scope of its own; a repetition without a count is left
out. -/
def generate (repetition : Repetition) {σ : Type} (emitter : Emitter σ)
    (subEvents : Option (Emit σ String)) : Emit σ String := do
  if repetition.count.isEmpty then
    emitter.report withoutCount
    return ""
  else
    let counter ← Emit.uniqueName "repeat"
    let _ ← Emit.declare counter
    let body ← Emit.nested <| GuardedBlock.generate
      { conditions := [repetition.conditions], actions := [repetition.actions], subEvents }
      emitter
    return bindCounter counter repetition.count.trimmed ++
      block (loopHeader counter) body emitter.indentUnit

/-- The count first, then conditions and actions. -/
def editExpressions {State : Type} (edit : Expression → StateM State Expression)
    (repetition : Repetition) : StateM State Repetition := do
  let count ← edit repetition.count
  let (conditions, actions) ← editLists edit repetition.conditions repetition.actions
  return { count, conditions, actions }

/-- A line for the count above the two columns. -/
def renderedHeight (repetition : Repetition) (width : UInt32) : UInt32 :=
  Rendering.lineHeight +
    Rendering.columnsHeight repetition.conditions repetition.actions width +
    2 * Rendering.eventPadding

def toJson (repetition : Repetition) : Json :=
  .object (("count", repetition.count.toJson) ::
    listFields repetition.conditions repetition.actions)

open Json.Decoder in
def decode : Json.Decoder Repetition :=
  record ["count", "conditions", "actions"] fun levels entries => do
    match entries with
    | [count, conditions, actions] =>
        let count ← withDefault ⟨""⟩ Expression.decode levels count
        let conditions ← withDefault [] InstructionList.decode levels conditions
        let actions ← withDefault [] InstructionList.decode levels actions
        return { count, conditions, actions }
    | _ => none

end Repetition

end EventSheet.Kind
