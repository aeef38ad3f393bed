import EventSheet.Codegen.Emit
import EventSheet.Text.Layout
namespace EventSheet.Codegen

/-! The one order in which every event compiles: its condition lists, each to a
named flag; a guard over the flags; inside the guard the actions; and last, in a
nested block with a scope of its own, the sub-events. -/

/-- How the flags of several condition lists gate a block. -/
inductive Combine where
  | all
  | any
deriving DecidableEq

def Combine.operator : Combine → String
  | .all => " && "
  | .any => " || "

structure GuardedBlock (σ : Type) where
  conditions : List InstructionList := []
  combine : Combine := .all
  actions : List InstructionList := []
  /-- Compiles the sub-events; left out when there are none. -/
  subEvents : Option (Emit σ String) := none

/-- A block: a header line, an indented body and a closing brace. -/
def block (header body unit : String) : String :=
  header ++ "\x7b\n" ++ Text.indent body unit ++ "\x7d\n"

namespace GuardedBlock

variable {σ : Type}

def compileConditions (emitter : Emitter σ) :
    List InstructionList → Emit σ (List CompiledConditions)
  | [] => return []
  | head :: tail => do
      let head ← emitter.conditions head
      let tail ← compileConditions emitter tail
      return head :: tail

def compileActions (emitter : Emitter σ) : List InstructionList → Emit σ String
  | [] => return ""
  | head :: tail => do
      let head ← emitter.actions head
      let tail ← compileActions emitter tail
      return head ++ tail

/-- The nested block of the sub-events; nothing when they produce no code. -/
def compileSubEvents (emitter : Emitter σ) : Option (Emit σ String) → Emit σ String
  | none => return ""
  | some subEvents => do
      let code ← Emit.nested subEvents
      return if code.isEmpty then "" else block "" code emitter.indentUnit

/-- The line in front of a guarded block. -/
def guardHeader (combine : Combine) (flags : List String) : String :=
  if flags.isEmpty then ""
  else "if " ++ combine.operator.intercalate flags ++ " "

/-- Actions and sub-events, without any guard. -/
def generateBody (guarded : GuardedBlock σ) (emitter : Emitter σ) : Emit σ String := do
  let actions ← compileActions emitter guarded.actions
  let subEvents ← compileSubEvents emitter guarded.subEvents
  return actions ++ subEvents

def generate (guarded : GuardedBlock σ) (emitter : Emitter σ) : Emit σ String := do
  let compiled ← compileConditions emitter guarded.conditions
  let body ← guarded.generateBody emitter
  let header := guardHeader guarded.combine (compiled.map CompiledConditions.flag)
  return String.join (compiled.map CompiledConditions.code) ++
    block header body emitter.indentUnit

/-- Every list is compiled to conditions of its own. -/
theorem length_compileConditions (emitter : Emitter σ) (lists : List InstructionList)
    (emission : Emission σ) :
    (compileConditions emitter lists emission).1.length = lists.length := by
  induction lists generalizing emission with
  | nil => rfl
  | cons head tail induction => exact congrArg (· + 1) (induction _)

end GuardedBlock

end EventSheet.Codegen
