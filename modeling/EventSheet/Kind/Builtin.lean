import EventSheet.Kind.Branch
import EventSheet.Kind.Comment
import EventSheet.Kind.Link
import EventSheet.Kind.Repetition
namespace EventSheet.Kind

/-! The built-in kinds taken together. They behave the same in every family of
kinds they are part of. -/

inductive Builtin where
  | standard (standard : Standard)
  | comment (comment : Comment)
  | branch (branch : Branch)
  | repetition (repetition : Repetition)
  | link (link : Link)
deriving DecidableEq

namespace Builtin

def kindName : Builtin → String
  | .standard _ => Standard.kindName
  | .comment _ => Comment.kindName
  | .branch _ => Branch.kindName
  | .repetition _ => Repetition.kindName
  | .link _ => Link.kindName

def isExecutable : Builtin → Bool
  | .standard _ | .branch _ | .repetition _ => true
  | .comment _ | .link _ => false

def ownsSubEvents : Builtin → Bool
  | .standard _ | .repetition _ => true
  | .branch _ | .comment _ | .link _ => false

def conditionLists : Builtin → List InstructionList
  | .standard event => [event.conditions]
  | .branch event => event.conditionLists
  | .repetition event => [event.conditions]
  | .comment _ | .link _ => []

def actionLists : Builtin → List InstructionList
  | .standard event => [event.actions]
  | .branch event => event.actionLists
  | .repetition event => [event.actions]
  | .comment _ | .link _ => []

def editConditionLists (edit : Nat → InstructionList → InstructionList) : Builtin → Builtin
  | .standard event =>
      .standard { event with conditions := edit 0 event.conditions }
  | .branch event => .branch (event.editConditionLists edit)
  | .repetition event =>
      .repetition { event with conditions := edit 0 event.conditions }
  | other => other

def editActionLists (edit : Nat → InstructionList → InstructionList) : Builtin → Builtin
  | .standard event => .standard { event with actions := edit 0 event.actions }
  | .branch event => .branch (event.editActionLists edit)
  | .repetition event =>
      .repetition { event with actions := edit 0 event.actions }
  | other => other

def editExpressions {State : Type} (edit : Expression → StateM State Expression) :
    Builtin → StateM State Builtin
  | .standard event => return .standard (← event.editExpressions edit)
  | .branch event => return .branch (← event.editExpressions edit)
  | .repetition event => return .repetition (← event.editExpressions edit)
  | other => return other

def renderedHeight : Builtin → UInt32 → UInt32
  | .standard event => event.renderedHeight
  | .comment event => event.renderedHeight
  | .branch event => event.renderedHeight
  | .repetition event => event.renderedHeight
  | .link event => event.renderedHeight

/-- The state of the kind as a record in the order of its fields. -/
def toJson : Builtin → Json
  | .standard event => event.toJson
  | .comment event => event.toJson
  | .branch event => event.toJson
  | .repetition event => event.toJson
  | .link event => event.toJson

/-- The persisted state: the same record as a free-form value. -/
def payload (builtin : Builtin) : Json := builtin.toJson.sorted

def generate (builtin : Builtin) {σ : Type} (emitter : Codegen.Emitter σ)
    (subEvents : Option (Codegen.Emit σ String)) : Codegen.Emit σ String :=
  match builtin with
  | .standard event => event.generate emitter subEvents
  | .branch event => event.generate emitter
  | .repetition event => event.generate emitter subEvents
  | .comment _ | .link _ => return ""

/-- Links are expanded; the other kinds stay as they are. -/
def preprocess {β : Type} : Builtin → Pass β (Splice β)
  | .link event => event.preprocess
  | _ => return .keep

instance : EventKind Builtin where
  kind := kindName
  isExecutable := isExecutable
  ownsSubEvents := ownsSubEvents
  conditionLists := conditionLists
  actionLists := actionLists
  editConditionLists := editConditionLists
  editActionLists := editActionLists
  editExpressions := editExpressions
  renderedHeight := renderedHeight
  payload := payload

instance : Behavior Builtin where
  generate := generate
  preprocess := fun builtin _ => do return (builtin, ← builtin.preprocess)

end Builtin

end EventSheet.Kind
