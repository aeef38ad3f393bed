import EventSheet.Proofs.Compilation.Leaves
namespace EventSheet

/-! # Programs of plain events

Names that are identifiers and texts that stay on their line come to a well-formed
program. -/

open BlockProgram

/-! ## Plain events -/

mutual
/-- The name is an identifier or blank, and what was typed stays on its line. -/
def Instruction.IsPlain : Instruction → Prop
  | ⟨name, parameters, _, nested⟩ =>
      (Text.isBlankText name = false → IsIdentifier name) ∧
        (∀ parameter ∈ parameters, IsOneLine parameter.text) ∧ Instruction.AllPlain nested

def Instruction.AllPlain : List Instruction → Prop
  | [] => True
  | head :: tail => head.IsPlain ∧ Instruction.AllPlain tail
end

structure Kind.Builtin.IsPlain (builtin : Kind.Builtin) : Prop where
  conditions : ∀ list ∈ builtin.conditionLists, Instruction.AllPlain list
  actions : ∀ list ∈ builtin.actionLists, Instruction.AllPlain list
  count : ∀ repetition, builtin = .repetition repetition → IsOneLine repetition.count.text

mutual
def Node.IsPlain : Node Kind.Builtin → Prop
  | ⟨event, subEvents⟩ => event.behavior.IsPlain ∧ Forest.IsPlain subEvents

def Forest.IsPlain : List (Node Kind.Builtin) → Prop
  | [] => True
  | head :: tail => head.IsPlain ∧ Forest.IsPlain tail
end

/-! ## Texts and names -/

theorem Text.mem_of_mem_trimCharacters {character : Char} {characters : List Char}
    (member : character ∈ trimCharacters characters) : character ∈ characters := by
  rw [trimCharacters, List.mem_reverse] at member
  have inner := (List.dropWhile_sublist isBlank).subset member
  rw [List.mem_reverse] at inner
  exact (List.dropWhile_sublist isBlank).subset inner

theorem Expression.isOneLine_trimmed {expression : Expression}
    (oneLine : IsOneLine expression.text) : IsOneLine expression.trimmed := by
  intro newline
  rw [trimmed, Text.trim, String.toList_ofList] at newline
  exact oneLine (Text.mem_of_mem_trimCharacters newline)

theorem Codegen.isOneLine_argument {parameter : Expression}
    (oneLine : IsOneLine parameter.text) : IsOneLine (argument parameter) := by
  rw [argument]
  split
  · rw [IsOneLine]
    decide
  · exact parameter.isOneLine_trimmed oneLine

theorem isWordCharacter_of_mem_repr {number : Nat} {character : Char}
    (digit : character ∈ (Nat.repr number).toList) : isWordCharacter character = true := by
  rw [Nat.toList_repr] at digit
  have isDigit := Nat.isDigit_of_mem_toDigits (by decide) (by decide) digit
  rw [isWordCharacter, Char.isAlphanum, isDigit, Bool.or_true, Bool.true_or, Bool.true_or]

theorem BlockProgram.IsIdentifier.numbered {stem : String} (identifier : IsIdentifier stem)
    (number : Nat) : IsIdentifier (SharedScope.numbered stem number) where
  word := by
    have digits : (Nat.repr number).toList.all isWordCharacter = true := by
      rw [List.all_eq_true]
      exact fun _ digit => isWordCharacter_of_mem_repr digit
    rw [SharedScope.numbered, String.toList_append, String.toList_append, List.all_append,
      List.all_append, identifier.word, digits]
    rfl
  start := by
    rcases identifier.start with ⟨first, rest, split, solid⟩
    refine ⟨first, rest ++ "_".toList ++ (Nat.repr number).toList, ?_, solid⟩
    rw [SharedScope.numbered, String.toList_append, String.toList_append, split]
    rfl

theorem isIdentifier_flag (number : Nat) :
    IsIdentifier (SharedScope.numbered "condition" number) :=
  IsIdentifier.numbered ⟨by decide, 'c', "ondition".toList, rfl, rfl⟩ number

theorem isIdentifier_counter (number : Nat) :
    IsIdentifier (SharedScope.numbered "repeat" number) :=
  IsIdentifier.numbered ⟨by decide, 'r', "epeat".toList, rfl, rfl⟩ number

/-! ## Instructions -/

theorem Instruction.allPlain_iff {instructions : List Instruction} :
    Instruction.AllPlain instructions ↔ ∀ instruction ∈ instructions, instruction.IsPlain := by
  induction instructions with
  | nil => exact iff_of_true trivial (List.forall_mem_nil _)
  | cons head tail induction => rw [List.forall_mem_cons, ← induction, AllPlain]

theorem BlockProgram.Operand.allWellFormed_iff {operands : List Operand} :
    Operand.AllWellFormed operands ↔ ∀ operand ∈ operands, operand.WellFormed := by
  induction operands with
  | nil => exact iff_of_true trivial (List.forall_mem_nil _)
  | cons head tail induction => rw [List.forall_mem_cons, ← induction, AllWellFormed]

theorem Instruction.makes_wellFormed :
    Instruction.Makes Instruction.IsPlain Operand.WellFormed where
  nested := by
    rintro ⟨name, parameters, inverted, nested⟩ ⟨_, _, plain⟩
    exact Instruction.allPlain_iff.mp plain
  call := by
    rintro ⟨name, parameters, inverted, nested⟩ ⟨identifier, oneLine, _⟩ named operands wellFormed
    refine ⟨identifier named, ?_, Operand.allWellFormed_iff.mpr wellFormed⟩
    rw [List.forall_mem_map]
    exact fun parameter isOne => Codegen.isOneLine_argument (oneLine parameter isOne)
  negation := fun _ wellFormed => wellFormed

/-! ## Events -/

theorem Kind.Builtin.IsPlain.provides {builtin : Kind.Builtin} (plain : builtin.IsPlain) :
    builtin.Provides Statement.WellFormed where
  conditions := by
    intro list isList number
    refine ⟨isIdentifier_flag number, Operand.allWellFormed_iff.mpr ?_⟩
    have allPlain := Instruction.allPlain_iff.mp (plain.conditions list isList)
    exact Instruction.makes_wellFormed.conditions trivial allPlain
  actions := by
    intro list isList action isAction operand isOperand
    have allPlain := Instruction.allPlain_iff.mp (plain.actions list isList)
    exact Instruction.makes_wellFormed.operand (allPlain action isAction) isOperand
  count := fun repetition isRepetition number =>
    ⟨isIdentifier_counter number, Expression.isOneLine_trimmed (plain.count _ isRepetition)⟩

theorem Naming.gives_isIdentifier : Naming.Gives IsIdentifier :=
  ⟨isIdentifier_flag, isIdentifier_counter⟩

theorem BlockProgram.wellFormed_hook {name : String} (identifier : IsIdentifier name)
    (node : NodeId) : (hook name node).WellFormed := by
  refine ⟨identifier, ?_, trivial⟩
  intro text member
  rw [List.mem_singleton.mp member]
  intro newline
  have word := isWordCharacter_of_mem_repr newline
  revert word
  decide

theorem Settings.hooks_wellFormed (settings : Settings) : settings.Hooks Statement.WellFormed :=
  fun _ node =>
    ⟨wellFormed_hook ⟨by decide, 'p', "rofiler_begin".toList, rfl, rfl⟩ node,
      wellFormed_hook ⟨by decide, 'p', "rofiler_end".toList, rfl, rfl⟩ node⟩

/-! ## Programs -/

namespace BlockProgram

mutual
theorem Statement.MadeOf.wellFormed : ∀ {statement : Statement},
    statement.MadeOf Statement.WellFormed IsIdentifier → statement.WellFormed
  | .bindFlag _ _, leaf => leaf
  | .bindCounter _ _, leaf => leaf
  | .evaluate _, leaf => leaf
  | .block _, body => MadeOf.wellFormed body
  | .loop _ _, ⟨isName, body⟩ => ⟨isName, MadeOf.wellFormed body⟩
  | .conditional _ _ _, ⟨isName, body, behind⟩ =>
      ⟨isName, MadeOf.wellFormed body, Alternative.MadeOf.wellFormed behind⟩

theorem Alternative.MadeOf.wellFormed : ∀ {alternative : Alternative},
    alternative.MadeOf Statement.WellFormed IsIdentifier → alternative.WellFormed
  | .done, _ => trivial
  | .otherwise _, body => MadeOf.wellFormed body
  | .elseIf _ _ _, ⟨isName, body, behind⟩ =>
      ⟨isName, MadeOf.wellFormed body, Alternative.MadeOf.wellFormed behind⟩

theorem MadeOf.wellFormed : ∀ {program : List Statement},
    MadeOf Statement.WellFormed IsIdentifier program → WellFormed program
  | [], _ => trivial
  | _ :: _, ⟨head, tail⟩ => ⟨Statement.MadeOf.wellFormed head, MadeOf.wellFormed tail⟩
end

end BlockProgram

/-! ## Forests -/

mutual
theorem Node.IsPlain.members : ∀ {node : Node Kind.Builtin}, node.IsPlain →
    ∀ event ∈ node.members, event.behavior.IsPlain
  | ⟨_, _⟩, ⟨plain, below⟩ =>
      List.forall_mem_cons.mpr ⟨plain, Forest.IsPlain.members below⟩

theorem Forest.IsPlain.members : ∀ {forest : List (Node Kind.Builtin)}, Forest.IsPlain forest →
    ∀ event ∈ Forest.members forest, event.behavior.IsPlain
  | [], _ => List.forall_mem_nil _
  | _ :: _, ⟨head, tail⟩ =>
      List.forall_mem_append.mpr ⟨Node.IsPlain.members head, Forest.IsPlain.members tail⟩
end

theorem Forest.IsPlain.wellFormed_program {settings : Settings} {population : Population}
    {forest : Forest Kind.Builtin} (plain : Forest.IsPlain forest) :
    WellFormed (Forest.program settings population forest) :=
  MadeOf.wellFormed (Forest.madeOf_program Naming.gives_isIdentifier settings.hooks_wellFormed
    fun event isMember => (plain.members event isMember).provides)

end EventSheet
