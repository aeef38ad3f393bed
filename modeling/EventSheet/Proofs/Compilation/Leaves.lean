import EventSheet.Proofs.Compilation.Translation
import EventSheet.Proofs.Lineage.Accounts
namespace EventSheet

/-! # What block programs are made of

A block program is made of leaves, which have no blocks of their own, and of the names its headers
use. The leaves of the program of a forest come from its events one by one, so what holds of all
that the events provide holds of all leaves. What holds of calls is found in the same way, from the
instructions up. -/

namespace BlockProgram

section

variable (Leaf : Statement → Prop) (Name : String → Prop)

mutual
def Statement.MadeOf : Statement → Prop
  | .bindFlag flag operands => Leaf (.bindFlag flag operands)
  | .bindCounter counter count => Leaf (.bindCounter counter count)
  | .evaluate operand => Leaf (.evaluate operand)
  | .block body => MadeOf body
  | .loop counter body => Name counter ∧ MadeOf body
  | .conditional flag body alternative => Name flag ∧ MadeOf body ∧ alternative.MadeOf

def Alternative.MadeOf : Alternative → Prop
  | .done => True
  | .otherwise body => MadeOf body
  | .elseIf flag body alternative => Name flag ∧ MadeOf body ∧ alternative.MadeOf

/-- Each leaf is of this kind, and so is each name of a header. -/
def MadeOf : List Statement → Prop
  | [] => True
  | head :: tail => head.MadeOf ∧ MadeOf tail
end

end

variable {Leaf : Statement → Prop} {Name : String → Prop}

theorem madeOf_append {first second : BlockProgram} (isFirst : MadeOf Leaf Name first)
    (isSecond : MadeOf Leaf Name second) : MadeOf Leaf Name (first ++ second) := by
  induction first with
  | nil => exact isSecond
  | cons head tail induction => exact ⟨isFirst.1, induction isFirst.2⟩

theorem madeOf_singleton {statement : Statement} (isOne : statement.MadeOf Leaf Name) :
    MadeOf Leaf Name [statement] := ⟨isOne, trivial⟩

theorem madeOf_nested {program : BlockProgram} (inner : MadeOf Leaf Name program) :
    MadeOf Leaf Name program.nested := by
  cases program with
  | nil => trivial
  | cons head tail => exact madeOf_singleton inner

end BlockProgram

open BlockProgram

/-! ## Operands -/

/-- Calls of such instructions have a property, given that those they are put together of do. -/
structure Instruction.Makes (Typed : Instruction → Prop) (Holds : Operand → Prop) : Prop where
  nested : ∀ instruction, Typed instruction → ∀ below ∈ instruction.subInstructions, Typed below
  call : ∀ instruction, Typed instruction → Text.isBlankText instruction.name = false →
    ∀ operands, (∀ operand ∈ operands, Holds operand) →
      Holds (.call instruction.name (instruction.parameters.map Codegen.argument) operands)
  negation : ∀ operand, Holds operand → Holds (.negation operand)

namespace Instruction.Makes

variable {Typed : Instruction → Prop} {Holds : Operand → Prop}

theorem negatedWhen (makes : Instruction.Makes Typed Holds) {operand : Operand}
    (holds : Holds operand) (inverted : Bool) : Holds (operand.negatedWhen inverted) := by
  cases inverted with
  | false => exact holds
  | true => exact makes.negation operand holds

mutual
theorem operand (makes : Instruction.Makes Typed Holds) :
    ∀ {instruction : Instruction} {operand : Operand}, Typed instruction →
      instruction.operand? = some operand → Holds operand
  | ⟨name, parameters, inverted, nested⟩, operand, typed, isOperand => by
      rw [Instruction.operand?] at isOperand
      split at isOperand
      · cases isOperand
      · next named =>
          rw [Option.map_eq_some_iff] at isOperand
          rcases isOperand with ⟨operands, areOperands, rfl⟩
          exact makes.call _ typed (Bool.eq_false_iff.mpr named) operands
            (makes.operands (makes.nested _ typed) areOperands)

theorem operands (makes : Instruction.Makes Typed Holds) :
    ∀ {instructions : List Instruction} {operands : List Operand},
      (∀ instruction ∈ instructions, Typed instruction) →
      Instruction.operands? instructions = some operands → ∀ operand ∈ operands, Holds operand
  | [], operands, _, areOperands => by
      cases areOperands
      exact List.forall_mem_nil _
  | head :: tail, operands, allTyped, areOperands => by
      rw [List.forall_mem_cons] at allTyped
      rw [Instruction.operands?] at areOperands
      split at areOperands
      · next first others isFirst areOthers =>
          cases areOperands
          rw [List.forall_mem_cons]
          exact ⟨makes.negatedWhen (makes.operand allTyped.1 isFirst) _,
            makes.operands allTyped.2 areOthers⟩
      · cases areOperands
end

theorem condition (makes : Instruction.Makes Typed Holds) (never : Holds .never)
    {instruction : Instruction} (typed : Typed instruction) : Holds instruction.condition := by
  rw [Instruction.condition]
  split
  · next operand isOperand => exact makes.negatedWhen (makes.operand typed isOperand) _
  · exact never

theorem conditions (makes : Instruction.Makes Typed Holds) (never : Holds .never)
    {list : InstructionList} (allTyped : ∀ instruction ∈ list, Typed instruction) :
    ∀ operand ∈ InstructionList.operands list, Holds operand := by
  rw [InstructionList.operands, List.forall_mem_map]
  exact fun instruction isOne => makes.condition never (allTyped instruction isOne)

end Instruction.Makes

/-! ## Events -/

/-- The leaves that an event brings are of this kind, whatever numbers its names get. -/
structure Kind.Builtin.Provides (Leaf : Statement → Prop) (builtin : Kind.Builtin) : Prop where
  conditions : ∀ list ∈ builtin.conditionLists, ∀ number,
    Leaf (.bindFlag (SharedScope.numbered "condition" number) (InstructionList.operands list))
  actions : ∀ list ∈ builtin.actionLists, ∀ action ∈ list, ∀ operand,
    action.operand? = some operand → Leaf (.evaluate operand)
  count : ∀ repetition, builtin = .repetition repetition → ∀ number,
    Leaf (.bindCounter (SharedScope.numbered "repeat" number) repetition.count.trimmed)

/-- All names that are handed out are of this kind. -/
structure Naming.Gives (Name : String → Prop) : Prop where
  flag : ∀ number, Name (SharedScope.numbered "condition" number)
  counter : ∀ number, Name (SharedScope.numbered "repeat" number)

/-- Whatever names were handed out before, the program is made of these. -/
def Naming.MadeOf (Leaf : Statement → Prop) (Name : String → Prop)
    (naming : Naming BlockProgram) : Prop :=
  ∀ names, BlockProgram.MadeOf Leaf Name (naming names).1

variable {Leaf : Statement → Prop} {Name : String → Prop}

theorem InstructionList.madeOf_statements {actions : InstructionList}
    (provided : ∀ action ∈ actions, ∀ operand, action.operand? = some operand →
      Leaf (.evaluate operand)) :
    MadeOf Leaf Name (InstructionList.statements actions) := by
  rw [InstructionList.statements]
  induction actions with
  | nil => trivial
  | cons head tail induction =>
      rw [List.forall_mem_cons] at provided
      rw [List.filterMap_cons]
      split
      · exact induction provided.2
      · next operand isOperand => exact ⟨provided.1 operand isOperand, induction provided.2⟩

namespace Naming.MadeOf

variable {naming : Naming BlockProgram}

theorem nothing : Naming.MadeOf Leaf Name (pure []) := fun _ => trivial

theorem within (inner : naming.MadeOf Leaf Name) (limit depth : Nat) :
    (naming.within limit depth).MadeOf Leaf Name := by
  rw [Naming.within]
  split
  · exact nothing
  · exact inner

theorem standard (gives : Naming.Gives Name) (inner : naming.MadeOf Leaf Name)
    {standard : Kind.Standard} (provides : (Kind.Builtin.standard standard).Provides Leaf) :
    (standard.program naming).MadeOf Leaf Name := by
  intro names
  have actions : BlockProgram.MadeOf Leaf Name (InstructionList.statements standard.actions) :=
    InstructionList.madeOf_statements (provides.actions standard.actions List.mem_cons_self)
  have body := madeOf_append actions (madeOf_nested (inner (Naming.flag names).2))
  exact ⟨provides.conditions standard.conditions List.mem_cons_self names.flags,
    ⟨gives.flag names.flags, body, trivial⟩, trivial⟩

theorem repetition (gives : Naming.Gives Name) (inner : naming.MadeOf Leaf Name)
    {repetition : Kind.Repetition}
    (provides : (Kind.Builtin.repetition repetition).Provides Leaf) :
    (repetition.program naming).MadeOf Leaf Name := by
  have body : (Kind.Standard.program ⟨repetition.conditions, repetition.actions⟩ naming).MadeOf
      Leaf Name :=
    inner.standard gives ⟨provides.conditions, provides.actions, nofun⟩
  rw [Kind.Repetition.program]
  split
  · exact nothing
  · intro names
    exact ⟨provides.count repetition rfl names.counters,
      ⟨gives.counter names.counters, body (Naming.counter names).2⟩, trivial⟩

end Naming.MadeOf

/-! The arms of a branch. -/

namespace Kind.Branch

/-- An arm with its flag provides leaves of this kind. -/
structure ArmProvides (Leaf : Statement → Prop) (Name : String → Prop)
    (named : BranchArm × String) : Prop where
  binding : Leaf (bindArm named)
  actions : MadeOf Leaf Name (InstructionList.statements named.1.actions)
  flag : Name named.2

theorem armProvides_of_mem_nameArms (gives : Naming.Gives Name) {branch : Branch}
    (provides : (Builtin.branch branch).Provides Leaf) {names : Names}
    {named : BranchArm × String} (isNamed : named ∈ (nameArms branch.arms names).1) :
    ArmProvides Leaf Name named := by
  have isArm : named.1 ∈ branch.arms := by
    rw [← map_fst_nameArms branch.arms names]
    exact List.mem_map_of_mem isNamed
  have isFlag : named.2 ∈ (nameArms branch.arms names).1.map Prod.snd :=
    List.mem_map_of_mem isNamed
  rw [map_snd_nameArms] at isFlag
  rcases List.mem_map.mp isFlag with ⟨number, _, isNumbered⟩
  have binding := provides.conditions named.1.conditions (List.mem_map_of_mem isArm) number
  rw [isNumbered] at binding
  have isList : named.1.actions ∈ branch.actionLists :=
    List.mem_append_left _ (List.mem_map_of_mem isArm)
  refine ⟨binding, InstructionList.madeOf_statements (provides.actions _ isList), ?_⟩
  rw [← isNumbered]
  exact gives.flag number

variable {otherwise : InstructionList} {named : List (BranchArm × String)}

theorem madeOf_bindArms (arms : ∀ arm ∈ named, ArmProvides Leaf Name arm) :
    MadeOf Leaf Name (named.map bindArm) := by
  induction named with
  | nil => trivial
  | cons head tail induction =>
      rw [List.forall_mem_cons] at arms
      exact ⟨arms.1.binding, induction arms.2⟩

theorem madeOf_alternative (actions : MadeOf Leaf Name (InstructionList.statements otherwise))
    (arms : ∀ arm ∈ named, ArmProvides Leaf Name arm) :
    (alternative otherwise named).MadeOf Leaf Name := by
  induction named with
  | nil =>
      rw [alternative]
      split
      · trivial
      · exact actions
  | cons head tail induction =>
      rw [List.forall_mem_cons] at arms
      exact ⟨arms.1.flag, arms.1.actions, induction arms.2⟩

theorem madeOf_assemble (actions : MadeOf Leaf Name (InstructionList.statements otherwise))
    (arms : ∀ arm ∈ named, ArmProvides Leaf Name arm) :
    MadeOf Leaf Name (assemble otherwise named) := by
  cases named with
  | nil =>
      rw [assemble]
      split
      · trivial
      · exact madeOf_singleton actions
  | cons head tail =>
      have bindings := madeOf_bindArms arms
      rw [List.forall_mem_cons] at arms
      apply madeOf_append bindings
      exact ⟨⟨arms.1.flag, arms.1.actions, madeOf_alternative actions arms.2⟩, trivial⟩

end Kind.Branch

theorem Naming.MadeOf.branch (gives : Naming.Gives Name) {branch : Kind.Branch}
    (provides : (Kind.Builtin.branch branch).Provides Leaf) :
    branch.program.MadeOf Leaf Name := by
  intro names
  have isList : branch.otherwise ∈ branch.actionLists :=
    List.mem_append_right _ (List.mem_singleton_self _)
  apply Kind.Branch.madeOf_assemble
    (InstructionList.madeOf_statements (provides.actions branch.otherwise isList))
  exact fun _ isNamed => Kind.Branch.armProvides_of_mem_nameArms gives provides isNamed

/-! ## Forests -/

/-- The calls of the profiler are leaves of this kind, if there are any. -/
def Settings.Hooks (Leaf : Statement → Prop) (settings : Settings) : Prop :=
  settings.profiling.emitHooks = true → ∀ node,
    Leaf (hook "profiler_begin" node) ∧ Leaf (hook "profiler_end" node)

theorem BlockProgram.madeOf_withHooks {settings : Settings} (hooks : settings.Hooks Leaf)
    {program : BlockProgram} (inner : MadeOf Leaf Name program) (node : NodeId) :
    MadeOf Leaf Name (program.withHooks settings.profiling.emitHooks node) := by
  rw [withHooks]
  split
  · trivial
  · split
    · next on => exact ⟨(hooks on node).1, madeOf_append inner ⟨(hooks on node).2, trivial⟩⟩
    · exact inner

section

variable {settings : Settings} {population : Population}

mutual
theorem Node.madeOf_program (gives : Naming.Gives Name) (hooks : settings.Hooks Leaf) :
    ∀ {node : Node Kind.Builtin}, (∀ event ∈ node.members, event.behavior.Provides Leaf) →
      ∀ depth, (node.program settings population depth).MadeOf Leaf Name
  | ⟨⟨id, behavior, disabled, folded, remembered⟩, subEvents⟩, provided, depth => by
      rw [Node.members, List.forall_mem_cons] at provided
      rcases provided with ⟨own, below⟩
      rw [Node.program]
      cases disabled with
      | true => exact Naming.MadeOf.nothing
      | false =>
          cases behavior with
          | standard standard =>
              have inner := (Forest.madeOf_programs gives hooks below (depth + 1)).within
                settings.limits.maxNestingDepth.toNat (depth + 1)
              exact inner.standard gives own
          | branch branch => exact Naming.MadeOf.branch gives own
          | repetition repetition =>
              have inner := (Forest.madeOf_programs gives hooks below (depth + 2)).within
                settings.limits.maxNestingDepth.toNat (depth + 2)
              exact inner.repetition gives own
          | comment comment => exact Naming.MadeOf.nothing
          | link link => exact Naming.MadeOf.nothing

theorem Forest.madeOf_programs (gives : Naming.Gives Name) (hooks : settings.Hooks Leaf) :
    ∀ {forest : List (Node Kind.Builtin)},
      (∀ event ∈ Forest.members forest, event.behavior.Provides Leaf) →
      ∀ depth, (Forest.programs settings population depth forest).MadeOf Leaf Name
  | [], _, _ => Naming.MadeOf.nothing
  | head :: tail, provided, depth => by
      rw [Forest.members, List.forall_mem_append] at provided
      intro names
      have first := Node.madeOf_program gives hooks provided.1 depth names
      have rest := Forest.madeOf_programs gives hooks provided.2 depth
        (head.program settings population depth names).2
      exact madeOf_append (madeOf_withHooks hooks first _) rest
end

/-- The program of a forest is made of what its events provide. -/
theorem Forest.madeOf_program (gives : Naming.Gives Name) (hooks : settings.Hooks Leaf)
    {forest : Forest Kind.Builtin}
    (provided : ∀ event ∈ Forest.members forest, event.behavior.Provides Leaf) :
    MadeOf Leaf Name (Forest.program settings population forest) :=
  (Forest.madeOf_programs gives hooks provided 0).within settings.limits.maxNestingDepth.toNat 0 {}

end

end EventSheet
