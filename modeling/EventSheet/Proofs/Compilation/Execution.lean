import EventSheet.Proofs.Compilation.BlockProgram
import EventSheet.Proofs.Compilation.Reading
namespace EventSheet

/-! # Running block programs

A block sees the flags and counters bound before it, in itself and in the blocks around
it. A program that uses a name it does not see, or a counter as a flag, is stuck. -/

/-- Runs that can be stuck. -/
abbrev Execution (σ : Type) := StateT (Machine σ) Option

namespace Execution

variable {σ α β : Type}

/-- A run that is never stuck. -/
def total (action : StateM (Machine σ) α) : Execution σ α := fun machine => some (action machine)

/-- Go on with a value, if there is one. -/
def known (value? : Option α) : Execution σ α := fun machine =>
  value?.map fun value => (value, machine)

@[simp] theorem known_some (value : α) : (known (some value) : Execution σ α) = pure value := rfl

theorem total_pure (value : α) : (total (pure value) : Execution σ α) = pure value := rfl

theorem total_bind (action : StateM (Machine σ) α) (next : α → StateM (Machine σ) β) :
    total (action >>= next) = total action >>= fun value => total (next value) := rfl

theorem total_repeatTimes (count : Nat) (body : StateM (Machine σ) Unit) :
    total (repeatTimes count body) = repeatTimes count (total body) := by
  induction count with
  | zero => rfl
  | succ count induction => rw [repeatTimes, total_bind, induction, repeatTimes]

end Execution

namespace BlockProgram

/-! ## Environments -/

inductive Value where
  | flag (holds : Bool)
  | counter (count : Nat)
deriving DecidableEq

/-- What names are bound to, the latest binding first. -/
abbrev Environment := List (String × Value)

namespace Environment

def flag? (environment : Environment) (name : String) : Option Bool :=
  match environment.lookup name with
  | some (.flag holds) => some holds
  | some (.counter _) | none => none

def counter? (environment : Environment) (name : String) : Option Nat :=
  match environment.lookup name with
  | some (.counter count) => some count
  | some (.flag _) | none => none

def bindFlag (name : String) (holds : Bool) (environment : Environment) : Environment :=
  (name, .flag holds) :: environment

def bindCounter (name : String) (count : Nat) (environment : Environment) : Environment :=
  (name, .counter count) :: environment

@[simp] theorem flag?_bindFlag_self (name : String) (holds : Bool) (environment : Environment) :
    (environment.bindFlag name holds).flag? name = some holds := by
  rw [flag?, bindFlag, List.lookup_cons_self]

theorem flag?_bindFlag_of_ne {name other : String} (different : other ≠ name) (holds : Bool)
    (environment : Environment) :
    (environment.bindFlag name holds).flag? other = environment.flag? other := by
  have unequal : (other == name) = false := by simp [different]
  rw [flag?, bindFlag, List.lookup_cons, unequal]
  rfl

@[simp] theorem counter?_bindCounter_self (name : String) (count : Nat)
    (environment : Environment) :
    (environment.bindCounter name count).counter? name = some count := by
  rw [counter?, bindCounter, List.lookup_cons_self]

end Environment

/-! ## Runs -/

section

variable {σ : Type} (interpretation : Interpretation σ)

mutual
/-- All operands of a call are evaluated before it. -/
def Operand.evaluate : Operand → StateM (Machine σ) Bool
  | .call name arguments operands => do
      let operands ← Operand.evaluateAll operands
      interpretation.perform ⟨name, arguments, operands⟩
  | .negation operand => do
      let answer ← operand.evaluate
      return !answer
  | .never => return false

def Operand.evaluateAll : List Operand → StateM (Machine σ) (List Bool)
  | [] => return []
  | head :: tail => do
      let answer ← head.evaluate
      let rest ← Operand.evaluateAll tail
      return answer :: rest
end

/-- A conjunction is evaluated up to the first operand that is false. -/
def conjunction : List Operand → StateM (Machine σ) Bool
  | [] => return true
  | head :: tail => do
      if ← head.evaluate interpretation then conjunction tail else return false

mutual
/-- Run a statement; the answer is what the statements behind it see. -/
def Statement.run : Statement → Environment → Execution σ Environment
  | .bindFlag flag operands, environment => do
      let holds ← Execution.total (conjunction interpretation operands)
      return environment.bindFlag flag holds
  | .bindCounter counter count, environment => do
      let number ← Execution.total (interpretation.number count)
      return environment.bindCounter counter number
  | .evaluate operand, environment => do
      let _ ← Execution.total (operand.evaluate interpretation)
      return environment
  | .block body, environment => do
      let _ ← run body environment
      return environment
  | .loop counter body, environment => do
      let count ← Execution.known (environment.counter? counter)
      repeatTimes count do
        let _ ← run body environment
      return environment
  | .conditional flag body alternative, environment => do
      let holds ← Execution.known (environment.flag? flag)
      if holds then
        let _ ← run body environment
      else
        alternative.run environment
      return environment

def Alternative.run : Alternative → Environment → Execution σ Unit
  | .done, _ => return ()
  | .otherwise body, environment => do
      let _ ← run body environment
  | .elseIf flag body alternative, environment => do
      let holds ← Execution.known (environment.flag? flag)
      if holds then
        let _ ← run body environment
      else
        alternative.run environment

def run : List Statement → Environment → Execution σ Environment
  | [], environment => return environment
  | head :: tail, environment => do
      let environment ← head.run environment
      run tail environment
end

/-- Where a program ends; nothing when it is stuck. -/
def execute (program : BlockProgram) (state : σ) : Option (Machine σ) :=
  (run interpretation program [] { state }).map Prod.snd

theorem run_append (first second : BlockProgram) (environment : Environment) :
    run interpretation (first ++ second) environment =
      run interpretation first environment >>= run interpretation second := by
  induction first generalizing environment with
  | nil => rw [List.nil_append, run, pure_bind]
  | cons head tail induction =>
      rw [List.cons_append, run, run, bind_assoc]
      simp only [induction]

end

end BlockProgram

end EventSheet
