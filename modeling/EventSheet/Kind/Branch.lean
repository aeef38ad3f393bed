import EventSheet.Kind.Standard
namespace EventSheet.Kind

/-! The branch: run the actions of the first arm whose conditions hold, or the
`otherwise` actions when none does. The conditions of every arm are evaluated
before any action runs. -/

structure BranchArm where
  conditions : InstructionList := []
  actions : InstructionList := []
deriving DecidableEq

structure Branch where
  arms : List BranchArm := []
  otherwise : InstructionList := []
deriving DecidableEq

namespace BranchArm

def toJson (arm : BranchArm) : Json := .object (listFields arm.conditions arm.actions)

open Json.Decoder in
def decode : Json.Decoder BranchArm :=
  record ["conditions", "actions"] fun levels entries => do
    match entries with
    | [conditions, actions] =>
        let conditions ← withDefault [] InstructionList.decode levels conditions
        let actions ← withDefault [] InstructionList.decode levels actions
        return { conditions, actions }
    | _ => none

def editExpressions {State : Type} (edit : Expression → StateM State Expression)
    (arm : BranchArm) : StateM State BranchArm := do
  let (conditions, actions) ← editLists edit arm.conditions arm.actions
  return { conditions, actions }

end BranchArm

namespace Branch

def kindName : String := "BuiltinCommonInstructions::Branch"

def withArm (branch : Branch) (arm : BranchArm) : Branch :=
  { branch with arms := branch.arms ++ [arm] }

def conditionLists (branch : Branch) : List InstructionList :=
  branch.arms.map BranchArm.conditions

/-- The actions of every arm, then the `otherwise` actions. -/
def actionLists (branch : Branch) : List InstructionList :=
  branch.arms.map BranchArm.actions ++ [branch.otherwise]

def editConditionLists (edit : Nat → InstructionList → InstructionList) (branch : Branch) :
    Branch :=
  { branch with
    arms := branch.arms.mapIdx fun position arm =>
      { arm with conditions := edit position arm.conditions } }

def editActionLists (edit : Nat → InstructionList → InstructionList) (branch : Branch) :
    Branch where
  arms := branch.arms.mapIdx fun position arm =>
    { arm with actions := edit position arm.actions }
  otherwise := edit branch.arms.length branch.otherwise

/-- Arm by arm, conditions before actions, then `otherwise`. -/
def editExpressions {State : Type} (edit : Expression → StateM State Expression)
    (branch : Branch) : StateM State Branch := do
  let arms ← branch.arms.mapM (BranchArm.editExpressions edit)
  let otherwise ← Instruction.editAll edit branch.otherwise
  return { arms, otherwise }

open Codegen

/-- The header of an arm; every arm but the first closes the one before. -/
def armHeader (isFirst : Bool) (flag : String) : String :=
  (if isFirst then "if " else "\x7d else if ") ++ flag ++ " \x7b\n"

/-- The arms with their bodies, each guarded by its flag. -/
def generateArms {σ : Type} (emitter : Emitter σ) (isFirst : Bool) :
    List (BranchArm × CompiledConditions) → Emit σ String
  | [] => return ""
  | (arm, compiled) :: rest => do
      let body ← GuardedBlock.generateBody { actions := [arm.actions] } emitter
      let rest ← generateArms emitter false rest
      return armHeader isFirst compiled.flag ++ Text.indent body emitter.indentUnit ++ rest

def generateOtherwise {σ : Type} (emitter : Emitter σ) (otherwise : InstructionList) :
    Emit σ String := do
  if otherwise.isEmpty then return ""
  let body ← GuardedBlock.generateBody { actions := [otherwise] } emitter
  return "\x7d else \x7b\n" ++ Text.indent body emitter.indentUnit

/-- Without arms only the `otherwise` actions are left. -/
def generate (branch : Branch) {σ : Type} (emitter : Emitter σ) : Emit σ String := do
  if branch.arms.isEmpty then
    if branch.otherwise.isEmpty then return ""
    else GuardedBlock.generate { actions := [branch.otherwise] } emitter
  else
    let compiled ← GuardedBlock.compileConditions emitter branch.conditionLists
    let arms ← generateArms emitter true (branch.arms.zip compiled)
    let otherwise ← generateOtherwise emitter branch.otherwise
    return String.join (compiled.map CompiledConditions.code) ++ arms ++ otherwise ++ "\x7d\n"

def renderedHeight (branch : Branch) (width : UInt32) : UInt32 :=
  Rendering.stacked
      (branch.arms.map fun arm => Rendering.columnsHeight arm.conditions arm.actions width) +
    Rendering.listHeight branch.otherwise (width / 2) + 2 * Rendering.eventPadding

def toJson (branch : Branch) : Json :=
  .object
    [("arms", .array (branch.arms.map BranchArm.toJson)),
     ("otherwise", branch.otherwise.toJson)]

open Json.Decoder in
def decode : Json.Decoder Branch :=
  record ["arms", "otherwise"] fun levels entries => do
    match entries with
    | [arms, otherwise] =>
        let arms ← withDefault [] (list BranchArm.decode) levels arms
        let otherwise ← withDefault [] InstructionList.decode levels otherwise
        return { arms, otherwise }
    | _ => none

end Branch

end EventSheet.Kind
