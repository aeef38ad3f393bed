import EventSheet.Behavior
import EventSheet.Codegen.GuardedBlock
import EventSheet.Instruction.Json
import EventSheet.Instruction.Slot
import EventSheet.Rendering.Metrics
namespace EventSheet.Kind

/-! The standard event: when all conditions hold, run the actions, then the
sub-events. -/

structure Standard where
  conditions : InstructionList := []
  actions : InstructionList := []
deriving DecidableEq

/-! Conditions and actions as two fields of a record, shared by several kinds. -/

def listFields (conditions actions : InstructionList) : List (String × Json) :=
  [("conditions", conditions.toJson), ("actions", actions.toJson)]

/-- Edit the lists one after the other. -/
def editLists {State : Type} (edit : Expression → StateM State Expression)
    (conditions actions : InstructionList) :
    StateM State (InstructionList × InstructionList) := do
  let conditions ← Instruction.editAll edit conditions
  let actions ← Instruction.editAll edit actions
  return (conditions, actions)

namespace Standard

def kindName : String := "BuiltinCommonInstructions::Standard"

def generate (standard : Standard) {σ : Type} (emitter : Codegen.Emitter σ)
    (subEvents : Option (Codegen.Emit σ String)) : Codegen.Emit σ String :=
  Codegen.GuardedBlock.generate
    { conditions := [standard.conditions], actions := [standard.actions], subEvents } emitter

def editExpressions {State : Type} (edit : Expression → StateM State Expression)
    (standard : Standard) : StateM State Standard := do
  let (conditions, actions) ← editLists edit standard.conditions standard.actions
  return { conditions, actions }

def renderedHeight (standard : Standard) (width : UInt32) : UInt32 :=
  Rendering.columnsHeight standard.conditions standard.actions width +
    2 * Rendering.eventPadding

def toJson (standard : Standard) : Json :=
  .object (listFields standard.conditions standard.actions)

open Json.Decoder in
def decode : Json.Decoder Standard :=
  record ["conditions", "actions"] fun levels entries => do
    match entries with
    | [conditions, actions] =>
        let conditions ← withDefault [] InstructionList.decode levels conditions
        let actions ← withDefault [] InstructionList.decode levels actions
        return { conditions, actions }
    | _ => none

end Standard

end EventSheet.Kind
