import EventSheet.Codegen.Program
import EventSheet.Kind.Builtin
import EventSheet.Proofs.Compilation.BlockProgram
namespace EventSheet

/-! # The block program of a forest

Each event as the statements it compiles to. The only thing carried from one event to the
next is how many flags and counters were named. -/

/-- How many names of each stem were handed out. -/
structure Names where
  flags : Nat := 0
  counters : Nat := 0

abbrev Naming := StateM Names

namespace Naming

def flag : Naming String := fun names =>
  (SharedScope.numbered "condition" names.flags, { names with flags := names.flags + 1 })

def counter : Naming String := fun names =>
  (SharedScope.numbered "repeat" names.counters, { names with counters := names.counters + 1 })

end Naming

open BlockProgram

/-! ## Instructions -/

def BlockProgram.Operand.negatedWhen (inverted : Bool) (operand : Operand) : Operand :=
  if inverted then .negation operand else operand

mutual
/-- The call of an instruction, unless it cannot be called. -/
def Instruction.operand? : Instruction → Option Operand
  | ⟨name, parameters, _, nested⟩ =>
      if Text.isBlankText name then none
      else (Instruction.operands? nested).map (.call name (parameters.map Codegen.argument))

def Instruction.operands? : List Instruction → Option (List Operand)
  | [] => some []
  | head :: tail =>
      match head.operand?, Instruction.operands? tail with
      | some operand, some operands => some (operand.negatedWhen head.inverted :: operands)
      | _, _ => none
end

def Instruction.condition (instruction : Instruction) : Operand :=
  match instruction.operand? with
  | some operand => operand.negatedWhen instruction.inverted
  | none => .never

def InstructionList.operands (conditions : InstructionList) : List Operand :=
  conditions.map Instruction.condition

/-- One statement for each action that can be called. -/
def InstructionList.statements (actions : InstructionList) : BlockProgram :=
  (actions.filterMap Instruction.operand?).map .evaluate

/-! ## Events -/

/-- The block of the sub-events, unless they come to nothing. -/
def BlockProgram.nested (program : BlockProgram) : BlockProgram :=
  if program.isEmpty then [] else [.block program]

def Kind.Standard.program (standard : Kind.Standard) (subEvents : Naming BlockProgram) :
    Naming BlockProgram := do
  let flag ← Naming.flag
  let inner ← subEvents
  return [.bindFlag flag (InstructionList.operands standard.conditions),
    .conditional flag (InstructionList.statements standard.actions ++ inner.nested) .done]

namespace Kind.Branch

/-- A flag for each arm. -/
def nameArms : List BranchArm → Naming (List (BranchArm × String))
  | [] => return []
  | head :: tail => do
      let flag ← Naming.flag
      let rest ← nameArms tail
      return (head, flag) :: rest

theorem map_fst_nameArms (arms : List BranchArm) (names : Names) :
    (nameArms arms names).1.map Prod.fst = arms := by
  induction arms generalizing names with
  | nil => rfl
  | cons head tail induction => exact congrArg (head :: ·) (induction _)

theorem map_snd_nameArms (arms : List BranchArm) (names : Names) :
    (nameArms arms names).1.map Prod.snd =
      (List.range' names.flags arms.length).map (SharedScope.numbered "condition") := by
  induction arms generalizing names with
  | nil => rfl
  | cons head tail induction => exact congrArg (_ :: ·) (induction _)

def bindArm (named : BranchArm × String) : Statement :=
  .bindFlag named.2 (InstructionList.operands named.1.conditions)

/-- The arms behind the first, then the `otherwise` actions. -/
def alternative (otherwise : InstructionList) : List (BranchArm × String) → Alternative
  | [] =>
      if otherwise.isEmpty then .done else .otherwise (InstructionList.statements otherwise)
  | (arm, flag) :: rest =>
      .elseIf flag (InstructionList.statements arm.actions) (alternative otherwise rest)

/-- Every arm binds its flag before the first one is looked at. -/
def assemble (otherwise : InstructionList) : List (BranchArm × String) → BlockProgram
  | [] => if otherwise.isEmpty then [] else [.block (InstructionList.statements otherwise)]
  | (arm, flag) :: rest =>
      (bindArm (arm, flag) :: rest.map bindArm) ++
        [.conditional flag (InstructionList.statements arm.actions)
          (alternative otherwise rest)]

def program (branch : Branch) : Naming BlockProgram := do
  let named ← nameArms branch.arms
  return assemble branch.otherwise named

end Kind.Branch

def Kind.Repetition.program (repetition : Kind.Repetition) (subEvents : Naming BlockProgram) :
    Naming BlockProgram := do
  if repetition.count.isEmpty then return []
  else
    let counter ← Naming.counter
    let body ← Kind.Standard.program ⟨repetition.conditions, repetition.actions⟩ subEvents
    return [.bindCounter counter repetition.count.trimmed, .loop counter body]

/-! ## Forests -/

def BlockProgram.hook (name : String) (node : NodeId) : Statement :=
  .evaluate (.call name [Nat.repr node] [])

/-- The profiler calls around the statements of an event, if they are asked for. -/
def BlockProgram.withHooks (emitHooks : Bool) (node : NodeId) (program : BlockProgram) :
    BlockProgram :=
  if program.isEmpty then []
  else if emitHooks then
    hook "profiler_begin" node :: program ++ [hook "profiler_end" node]
  else program

/-- Nothing is compiled below the limit. -/
def Naming.within (limit depth : Nat) (program : Naming BlockProgram) : Naming BlockProgram :=
  if limit < depth then return [] else program

section

variable (settings : Settings) (population : Population)

mutual
/-- The statements of a node in a block at a depth. A loop body is a block of its own. -/
def Node.program (depth : Nat) : Node Kind.Builtin → Naming BlockProgram
  | ⟨event, subEvents⟩ =>
      if event.disabled then return []
      else match event.behavior with
        | .standard standard =>
            standard.program <| Naming.within settings.limits.maxNestingDepth.toNat (depth + 1) <|
              Forest.programs (depth + 1) subEvents
        | .branch branch => branch.program
        | .repetition repetition =>
            repetition.program <|
              Naming.within settings.limits.maxNestingDepth.toNat (depth + 2) <|
                Forest.programs (depth + 2) subEvents
        | .comment _ | .link _ => return []

def Forest.programs (depth : Nat) : List (Node Kind.Builtin) → Naming BlockProgram
  | [] => return []
  | head :: tail => do
      let first ← head.program depth
      let rest ← Forest.programs depth tail
      return first.withHooks settings.profiling.emitHooks (head.event.sourceId population) ++ rest
end

/-- The block program of a forest. -/
def Forest.program (forest : Forest Kind.Builtin) : BlockProgram :=
  (Naming.within settings.limits.maxNestingDepth.toNat 0
    (Forest.programs settings population 0 forest) {}).1

end

end EventSheet
