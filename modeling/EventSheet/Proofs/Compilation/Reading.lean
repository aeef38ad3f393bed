import EventSheet.Codegen.Call
import EventSheet.Kind.Builtin
namespace EventSheet

/-! # What an event sheet means

The direct reading of a forest runs its events in order, without any program in
between. Calls and counts mean what an interpretation says they mean. -/

/-- A call with its operands evaluated. -/
structure Call where
  name : String
  arguments : List String
  operands : List Bool
deriving DecidableEq

/-- Calls change a state and answer with a boolean; the text of a count is a number in
a state. -/
structure Interpretation (σ : Type) where
  call : Call → σ → Bool × σ
  count : String → σ → Nat

/-- The state reached, and the calls performed on the way, oldest first. -/
structure Machine (σ : Type) where
  state : σ
  calls : List Call := []

namespace Interpretation

variable {σ : Type}

def perform (interpretation : Interpretation σ) (call : Call) : StateM (Machine σ) Bool :=
  fun machine =>
    let (answer, state) := interpretation.call call machine.state
    (answer, { state, calls := machine.calls ++ [call] })

def number (interpretation : Interpretation σ) (count : String) : StateM (Machine σ) Nat :=
  fun machine => (interpretation.count count machine.state, machine)

end Interpretation

def repeatTimes {m : Type → Type} [Monad m] : Nat → m Unit → m Unit
  | 0, _ => return ()
  | count + 1, body => do
      body
      repeatTimes count body

/-! ## Instructions -/

mutual
/-- The instruction and all that are nested in it have names. -/
def Instruction.isCallable : Instruction → Bool
  | ⟨name, _, _, nested⟩ => !Text.isBlankText name && Instruction.allCallable nested

def Instruction.allCallable : List Instruction → Bool
  | [] => true
  | head :: tail => head.isCallable && Instruction.allCallable tail
end

section

variable {σ : Type} (interpretation : Interpretation σ)

mutual
/-- Call an instruction once its nested instructions, which are conditions, are
evaluated. -/
def Instruction.perform : Instruction → StateM (Machine σ) Bool
  | ⟨name, parameters, _, nested⟩ => do
      let operands ← Instruction.evaluateAll nested
      interpretation.perform ⟨name, parameters.map Codegen.argument, operands⟩

def Instruction.evaluateAll : List Instruction → StateM (Machine σ) (List Bool)
  | [] => return []
  | head :: tail => do
      let answer ← head.perform
      let rest ← Instruction.evaluateAll tail
      return (answer != head.inverted) :: rest
end

/-- A condition that cannot be called never holds. -/
def Instruction.holds (condition : Instruction) : StateM (Machine σ) Bool := do
  if condition.isCallable then
    let answer ← condition.perform interpretation
    return answer != condition.inverted
  else return false

/-- Left to right, up to the first condition that does not hold. -/
def InstructionList.hold : InstructionList → StateM (Machine σ) Bool
  | [] => return true
  | head :: tail => do
      if ← head.holds interpretation then InstructionList.hold tail else return false

/-- Actions that cannot be called are left out. -/
def InstructionList.act : InstructionList → StateM (Machine σ) Unit
  | [] => return ()
  | head :: tail => do
      if head.isCallable then
        let _ ← head.perform interpretation
      InstructionList.act tail

/-! ## Events -/

def Kind.Standard.read (standard : Kind.Standard) (subEvents : StateM (Machine σ) Unit) :
    StateM (Machine σ) Unit := do
  if ← InstructionList.hold interpretation standard.conditions then
    InstructionList.act interpretation standard.actions
    subEvents

/-- The conditions of every arm, whether or not an earlier arm holds. -/
def Kind.Branch.holdArms : List Kind.BranchArm → StateM (Machine σ) (List Bool)
  | [] => return []
  | head :: tail => do
      let holds ← InstructionList.hold interpretation head.conditions
      let rest ← Kind.Branch.holdArms tail
      return holds :: rest

/-- The actions of the first arm that holds, or else the `otherwise` actions. -/
def Kind.Branch.chosen (branch : Kind.Branch) (results : List Bool) : InstructionList :=
  match (branch.arms.zip results).find? Prod.snd with
  | some (arm, _) => arm.actions
  | none => branch.otherwise

def Kind.Branch.read (branch : Kind.Branch) : StateM (Machine σ) Unit := do
  let results ← Kind.Branch.holdArms interpretation branch.arms
  InstructionList.act interpretation (branch.chosen results)

/-- The count is evaluated once; without a count nothing happens. -/
def Kind.Repetition.read (repetition : Kind.Repetition) (subEvents : StateM (Machine σ) Unit) :
    StateM (Machine σ) Unit := do
  if repetition.count.isEmpty then return ()
  else
    let count ← interpretation.number repetition.count.trimmed
    repeatTimes count <|
      Kind.Standard.read interpretation ⟨repetition.conditions, repetition.actions⟩ subEvents

mutual
/-- A disabled event is skipped with its sub-events, and so is one that is not
executable. -/
def Node.read : Node Kind.Builtin → StateM (Machine σ) Unit
  | ⟨event, subEvents⟩ =>
      if event.disabled then return ()
      else match event.behavior with
        | .standard standard => standard.read interpretation (Forest.read subEvents)
        | .branch branch => branch.read interpretation
        | .repetition repetition => repetition.read interpretation (Forest.read subEvents)
        | .comment _ | .link _ => return ()

def Forest.read : List (Node Kind.Builtin) → StateM (Machine σ) Unit
  | [] => return ()
  | head :: tail => do
      head.read
      Forest.read tail
end

end

end EventSheet
