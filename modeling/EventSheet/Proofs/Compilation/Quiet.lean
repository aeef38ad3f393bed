import EventSheet.Proofs.Compilation.Hooks
import EventSheet.Proofs.Compilation.Leaves
namespace EventSheet

/-! # Text without hooks

Every hook begins with the same word. Where that word was not typed it is not in the generated text
either: what the generator puts in between the texts typed is no part of the word. -/

open BlockProgram

/-! ## Text -/

/-- What the names of all calls of the profiler begin with. -/
def profilerWord : List Char := "profiler_".toList

namespace Text

/-- The word is nowhere in the text. -/
def Quiet (characters : List Char) : Prop := ¬ profilerWord <:+: characters

instance (characters : List Char) : Decidable (Quiet characters) :=
  inferInstanceAs (Decidable (¬ profilerWord <:+: characters))

namespace Quiet

variable {characters front behind : List Char}

theorem nil : Quiet [] := by decide

theorem of_part (quiet : Quiet characters) (part : front <:+: characters) : Quiet front :=
  fun isWord => quiet (isWord.trans part)

theorem of_not_mem {character : Char} (isOne : character ∈ profilerWord)
    (absent : character ∉ characters) : Quiet characters :=
  fun isWord => absent (isWord.subset isOne)

/-- What the generator puts in has not even the first letter of the word. -/
theorem keyword (absent : 'p' ∉ characters) : Quiet characters :=
  of_not_mem (by decide : 'p' ∈ profilerWord) absent

/-- Texts put together with a character in between that the word does not have. -/
theorem join (isFront : Quiet front) {separator : Char} (apart : separator ∉ profilerWord)
    (isBehind : Quiet behind) : Quiet (front ++ separator :: behind) := by
  rw [Quiet, List.infix_append_iff, List.infix_cons_iff]
  rintro (inFront | (starts | inBehind) | ⟨first, second, isWord, ends, starts⟩)
  · exact isFront inFront
  · have split : profilerWord = 'p' :: "rofiler_".toList := rfl
    rw [split, List.cons_prefix_cons] at starts
    rw [← starts.1] at apart
    exact apart (by decide)
  · exact isBehind inBehind
  · cases second with
    | nil =>
        rw [List.append_nil] at isWord
        rw [← isWord] at ends
        exact isFront ends.isInfix
    | cons head tail =>
        rw [(List.cons_prefix_cons.mp starts).1] at isWord
        rw [isWord] at apart
        exact apart (List.mem_append_right _ List.mem_cons_self)

theorem cons (isBehind : Quiet behind) {separator : Char} (apart : separator ∉ profilerWord) :
    Quiet (separator :: behind) :=
  nil.join apart isBehind

/-- Behind characters that the word does not have. -/
theorem prepend (isBehind : Quiet behind)
    (apart : ∀ character ∈ front, character ∉ profilerWord) : Quiet (front ++ behind) := by
  induction front with
  | nil => exact isBehind
  | cons head tail induction =>
      rw [List.forall_mem_cons] at apart
      exact (induction apart.2).cons apart.1

theorem indent (isBehind : Quiet behind) (margin : Nat) :
    Quiet (List.replicate margin ' ' ++ behind) := by
  apply isBehind.prepend
  intro character isSpace
  rw [List.eq_of_mem_replicate isSpace]
  decide

/-- Texts with an operator in between. -/
theorem intercalate {first : Char} {others : List Char}
    (operator : (first :: others).all (!profilerWord.contains ·) = true)
    {parts : List (List Char)} (each : ∀ part ∈ parts, Quiet part) :
    Quiet ((first :: others).intercalate parts) := by
  have apart : ∀ character ∈ first :: others, character ∉ profilerWord := by
    intro character isOne isLetter
    have outside := List.all_eq_true.mp operator character isOne
    rw [List.contains_iff_mem.mpr isLetter] at outside
    cases outside
  rw [List.forall_mem_cons] at apart
  induction parts with
  | nil => exact nil
  | cons head tail induction =>
      rw [List.forall_mem_cons] at each
      cases tail with
      | nil => simpa using each.1
      | cons second rest =>
          rw [List.intercalate_cons_cons, List.append_assoc, List.cons_append]
          exact each.1.join apart.1 ((induction each.2).prepend apart.2)

/-- A hook is not quiet. -/
theorem read?_eq_none (quiet : Quiet characters) : Hook.read? characters = none := by
  have loud (opening : String) (isWord : profilerWord <:+: opening.toList) :
      behind? opening (trimStart characters) = none := by
    rw [behind?]
    split
    · next starts =>
        rw [ List.isPrefixOf_iff_prefix] at starts
        have part : trimStart characters <:+: characters :=
          (List.dropWhile_suffix isBlank).isInfix
        exact absurd ((isWord.trans starts.isInfix).trans part) quiet
    · rfl
  rw [Hook.read?, loud "profiler_begin(" (by decide), loud "profiler_end(" (by decide)]
  rfl

end Quiet

/-! ## Lines -/

theorem Quiet.trimmedLines {lines : List (List Char)} (each : ∀ line ∈ lines, Quiet line) :
    ∀ line ∈ Text.trimmedLines (unlines lines), Quiet line := by
  rw [trimmedLines_unlines]
  intro line isLine
  rcases List.mem_flatMap.mp isLine with ⟨whole, isWhole, isPart⟩
  exact ((each whole isWhole).join (by decide) nil).of_part (infix_of_mem_trimmedLines isPart)

end Text

/-! ## Texts that were typed -/

mutual
/-- The texts of an instruction: names and parameters. -/
def Instruction.texts : Instruction → List String
  | ⟨name, parameters, _, nested⟩ =>
      name :: parameters.map Expression.text ++ Instruction.allTexts nested

def Instruction.allTexts : List Instruction → List String
  | [] => []
  | head :: tail => head.texts ++ Instruction.allTexts tail
end

/-- The texts of an event that get into generated code. -/
def Kind.Builtin.texts (builtin : Builtin) : List String :=
  (builtin.conditionLists ++ builtin.actionLists).flatMap Instruction.allTexts ++
    match builtin with
    | .repetition event => [event.count.text]
    | _ => []

theorem Instruction.mem_allTexts {instructions : List Instruction} {instruction : Instruction}
    (isOne : instruction ∈ instructions) {text : String} (isText : text ∈ instruction.texts) :
    text ∈ Instruction.allTexts instructions := by
  induction instructions with
  | nil => cases isOne
  | cons head tail induction =>
      rw [Instruction.allTexts, List.mem_append]
      rcases List.mem_cons.mp isOne with rfl | isLater
      · exact .inl isText
      · exact .inr (induction isLater)

theorem Kind.Builtin.mem_texts {builtin : Builtin} {list : InstructionList}
    (isList : list ∈ builtin.conditionLists ++ builtin.actionLists) {text : String}
    (isText : text ∈ Instruction.allTexts list) : text ∈ builtin.texts :=
  List.mem_append_left _ (List.mem_flatMap.mpr ⟨list, isList, isText⟩)

/-- None of the texts has the word that hooks begin with. -/
def AllQuiet (texts : List String) : Prop := ∀ text ∈ texts, Text.Quiet text.toList

theorem AllQuiet.append_iff {texts others : List String} :
    AllQuiet (texts ++ others) ↔ AllQuiet texts ∧ AllQuiet others :=
  List.forall_mem_append

/-! ## Operands -/

theorem Expression.quiet_trimmed {expression : Expression}
    (quiet : Text.Quiet expression.text.toList) : Text.Quiet expression.trimmed.toList := by
  rw [trimmed, Text.trim, String.toList_ofList]
  apply quiet.of_part
  rw [Text.trimCharacters]
  have front : Text.trimStart expression.text.toList <:+: expression.text.toList :=
    (List.dropWhile_suffix Text.isBlank).isInfix
  have behind : Text.trimStart (Text.trimStart expression.text.toList).reverse <:+:
      (Text.trimStart expression.text.toList).reverse :=
    (List.dropWhile_suffix Text.isBlank).isInfix
  have turned := List.reverse_infix.mpr behind
  rw [List.reverse_reverse] at turned
  exact turned.trans front

theorem Codegen.quiet_argument {parameter : Expression}
    (quiet : Text.Quiet parameter.text.toList) : Text.Quiet (argument parameter).toList := by
  rw [argument]
  split
  · exact Text.Quiet.keyword (by decide)
  · exact parameter.quiet_trimmed quiet

namespace BlockProgram

/-- The text of the operand is quiet. -/
def Operand.Quiet (operand : Operand) : Prop := Text.Quiet operand.print.toList

namespace Operand.Quiet

variable {operand : Operand} {operands : List Operand}

theorem negation (quiet : operand.Quiet) : (Operand.negation operand).Quiet := by
  have printed : (Operand.negation operand).print.toList = '!' :: operand.print.toList := by
    simp [Operand.print]
  rw [Operand.Quiet, printed]
  exact Text.Quiet.cons quiet (by decide)

theorem call {name : String} {arguments : List String} (isName : Text.Quiet name.toList)
    (areArguments : AllQuiet arguments) (areOperands : ∀ operand ∈ operands, operand.Quiet) :
    (Operand.call name arguments operands).Quiet := by
  have printed : (Operand.call name arguments operands).print.toList =
      name.toList ++ '(' :: (", ".toList.intercalate
        ((arguments ++ operands.map Operand.print).map String.toList) ++ ')' :: []) := by
    simp [Operand.print, Operand.printAll_eq_map, String.toList_intercalate]
  rw [Operand.Quiet, printed]
  apply isName.join (by decide)
  refine Text.Quiet.join ?_ (by decide) Text.Quiet.nil
  apply Text.Quiet.intercalate (by decide)
  rw [List.forall_mem_map, List.forall_mem_append, List.forall_mem_map]
  exact ⟨areArguments, areOperands⟩

end Operand.Quiet

end BlockProgram

theorem Instruction.allQuiet_of_mem {instructions : List Instruction}
    (quiet : AllQuiet (Instruction.allTexts instructions)) :
    ∀ instruction ∈ instructions, AllQuiet instruction.texts :=
  fun _ isOne text isText => quiet text (Instruction.mem_allTexts isOne isText)

theorem Instruction.makes_quiet :
    Instruction.Makes (fun instruction => AllQuiet instruction.texts) Operand.Quiet where
  nested := by
    rintro ⟨name, parameters, inverted, nested⟩ quiet
    rw [Instruction.texts, AllQuiet.append_iff] at quiet
    exact Instruction.allQuiet_of_mem quiet.2
  call := by
    rintro ⟨name, parameters, inverted, nested⟩ quiet - operands areOperands
    rw [Instruction.texts, AllQuiet.append_iff, AllQuiet, List.forall_mem_cons,
      List.forall_mem_map] at quiet
    rcases quiet with ⟨⟨isName, areParameters⟩, _⟩
    refine Operand.Quiet.call isName ?_ areOperands
    rw [AllQuiet, List.forall_mem_map]
    exact fun parameter isParameter => Codegen.quiet_argument (areParameters parameter isParameter)
  negation := fun _ quiet => quiet.negation

/-! ## Programs -/

namespace BlockProgram

theorem Operand.quiet_never : Operand.Quiet .never := Text.Quiet.keyword (by decide)

theorem quiet_printConjunction {operands : List Operand}
    (quiet : ∀ operand ∈ operands, operand.Quiet) :
    Text.Quiet (printConjunction operands).toList := by
  rw [printConjunction]
  split
  · exact Text.Quiet.keyword (by decide)
  · rw [String.toList_intercalate, Operand.printAll_eq_map]
    apply Text.Quiet.intercalate (by decide)
    rw [List.forall_mem_map, List.forall_mem_map]
    exact quiet

/-- All lines of the program are quiet. -/
def Quiet (program : BlockProgram) : Prop := ∀ line ∈ lines program, Text.Quiet line

def Statement.Quiet (statement : Statement) : Prop := ∀ line ∈ statement.lines, Text.Quiet line

def Alternative.Quiet (alternative : Alternative) : Prop :=
  ∀ line ∈ alternative.lines, Text.Quiet line

theorem quiet_numbered {stem : String} (absent : 'f' ∉ stem.toList) (number : Nat) :
    Text.Quiet (SharedScope.numbered stem number).toList := by
  have isLetter : 'f' ∈ profilerWord := by decide
  have inNumber : 'f' ∉ (Nat.repr number).toList := fun isDigit =>
    absurd (Hook.isDigit_repr number 'f' isDigit) (by decide)
  apply Text.Quiet.of_not_mem isLetter
  rw [SharedScope.numbered, String.toList_append, String.toList_append, List.mem_append,
    List.mem_append]
  rintro ((isStem | isSeparator) | isDigit)
  · exact absent isStem
  · exact absurd isSeparator (by decide)
  · exact inNumber isDigit

theorem quiet_flag (number : Nat) :
    Text.Quiet (SharedScope.numbered "condition" number).toList :=
  quiet_numbered (by decide) number

theorem quiet_counter (number : Nat) : Text.Quiet (SharedScope.numbered "repeat" number).toList :=
  quiet_numbered (by decide) number

/-! Leaves and headers. -/

namespace Quiet

open Text.Quiet (keyword)

variable {flag : String}

theorem bindFlag (isFlag : Text.Quiet flag.toList) {operands : List Operand}
    (areOperands : ∀ operand ∈ operands, operand.Quiet) :
    (Statement.bindFlag flag operands).Quiet := by
  have line : ("let " ++ flag ++ " = " ++ printConjunction operands ++ ";").toList =
      "let".toList ++ ' ' :: (flag.toList ++ ' ' ::
        ("=".toList ++ ' ' :: ((printConjunction operands).toList ++ ';' :: []))) := by
    simp
  rw [Statement.Quiet, Statement.lines, line, List.forall_mem_singleton]
  exact (keyword (by decide)).join (by decide) (isFlag.join (by decide)
    ((keyword (by decide)).join (by decide)
      ((quiet_printConjunction areOperands).join (by decide) Text.Quiet.nil)))

theorem bindCounter {counter count : String} (isCounter : Text.Quiet counter.toList)
    (isCount : Text.Quiet count.toList) : (Statement.bindCounter counter count).Quiet := by
  have line : ("let " ++ counter ++ " = (" ++ count ++ ") as usize;").toList =
      "let".toList ++ ' ' :: (counter.toList ++ ' ' ::
        ("= ".toList ++ '(' :: (count.toList ++ ')' :: " as usize;".toList))) := by
    simp
  rw [Statement.Quiet, Statement.lines, line, List.forall_mem_singleton]
  exact (keyword (by decide)).join (by decide) (isCounter.join (by decide)
    ((keyword (by decide)).join (by decide) (isCount.join (by decide) (keyword (by decide)))))

theorem evaluate {operand : Operand} (isOperand : operand.Quiet) :
    (Statement.evaluate operand).Quiet := by
  have line : (operand.print ++ ";").toList = operand.print.toList ++ ';' :: [] := by
    simp
  rw [Statement.Quiet, Statement.lines, line, List.forall_mem_singleton]
  exact Text.Quiet.join isOperand (by decide) Text.Quiet.nil

/-- A header in front of a body, with what comes behind. -/
theorem under {header : List Char} (isHeader : Text.Quiet header) {body : BlockProgram}
    (isBody : body.Quiet) {behind : List (List Char)}
    (isBehind : ∀ line ∈ behind, Text.Quiet line) :
    ∀ line ∈ header :: lines body ++ behind, Text.Quiet line := by
  rw [List.forall_mem_append, List.forall_mem_cons]
  exact ⟨⟨isHeader, isBody⟩, isBehind⟩

theorem closing : ∀ line ∈ ["\x7d".toList], Text.Quiet line :=
  List.forall_mem_singleton.mpr (keyword (by decide))

theorem header_for {counter : String} (isCounter : Text.Quiet counter.toList) :
    Text.Quiet ("for _ in 0.." ++ counter ++ " \x7b").toList := by
  have line : ("for _ in 0.." ++ counter ++ " \x7b").toList =
      "for _ in 0.".toList ++ '.' :: (counter.toList ++ ' ' :: "\x7b".toList) := by
    simp
  rw [line]
  exact (keyword (by decide)).join (by decide) (isCounter.join (by decide) (keyword (by decide)))

theorem header_if (isFlag : Text.Quiet flag.toList) :
    Text.Quiet ("if " ++ flag ++ " \x7b").toList := by
  have line : ("if " ++ flag ++ " \x7b").toList =
      "if".toList ++ ' ' :: (flag.toList ++ ' ' :: "\x7b".toList) := by
    simp
  rw [line]
  exact (keyword (by decide)).join (by decide) (isFlag.join (by decide) (keyword (by decide)))

theorem header_elseIf (isFlag : Text.Quiet flag.toList) :
    Text.Quiet ("\x7d else if " ++ flag ++ " \x7b").toList := by
  have line : ("\x7d else if " ++ flag ++ " \x7b").toList =
      "\x7d else if".toList ++ ' ' :: (flag.toList ++ ' ' :: "\x7b".toList) := by
    simp
  rw [line]
  exact (keyword (by decide)).join (by decide) (isFlag.join (by decide) (keyword (by decide)))

end Quiet

def IsQuietName (name : String) : Prop := Text.Quiet name.toList

mutual
theorem Statement.MadeOf.quiet : ∀ {statement : Statement},
    statement.MadeOf Statement.Quiet IsQuietName → statement.Quiet
  | .bindFlag _ _, leaf => leaf
  | .bindCounter _ _, leaf => leaf
  | .evaluate _, leaf => leaf
  | .block _, body =>
      Quiet.under (Text.Quiet.keyword (by decide)) (MadeOf.quiet body) Quiet.closing
  | .loop _ _, ⟨isName, body⟩ =>
      Quiet.under (Quiet.header_for isName) (MadeOf.quiet body) Quiet.closing
  | .conditional _ _ _, ⟨isName, body, behind⟩ =>
      Quiet.under (Quiet.header_if isName) (MadeOf.quiet body) (Alternative.MadeOf.quiet behind)

theorem Alternative.MadeOf.quiet : ∀ {alternative : Alternative},
    alternative.MadeOf Statement.Quiet IsQuietName → alternative.Quiet
  | .done, _ => Quiet.closing
  | .otherwise _, body =>
      Quiet.under (Text.Quiet.keyword (by decide)) (MadeOf.quiet body) Quiet.closing
  | .elseIf _ _ _, ⟨isName, body, behind⟩ =>
      Quiet.under (Quiet.header_elseIf isName) (MadeOf.quiet body)
        (Alternative.MadeOf.quiet behind)

theorem MadeOf.quiet : ∀ {program : List Statement},
    MadeOf Statement.Quiet IsQuietName program → Quiet program
  | [], _ => List.forall_mem_nil _
  | _ :: _, ⟨head, tail⟩ =>
      List.forall_mem_append.mpr ⟨Statement.MadeOf.quiet head, MadeOf.quiet tail⟩
end

end BlockProgram

/-! ## Forests -/

theorem Kind.Builtin.provides_quiet {builtin : Kind.Builtin} (quiet : AllQuiet builtin.texts) :
    builtin.Provides Statement.Quiet where
  conditions := by
    intro list isList number
    apply Quiet.bindFlag (quiet_flag number)
    apply Instruction.makes_quiet.conditions Operand.quiet_never
    exact fun condition isOne text isText =>
      quiet text (mem_texts (List.mem_append_left _ isList) (Instruction.mem_allTexts isOne isText))
  actions := by
    intro list isList action isAction operand isOperand
    apply Quiet.evaluate
    apply Instruction.makes_quiet.operand _ isOperand
    exact fun text isText => quiet text
      (mem_texts (List.mem_append_right _ isList) (Instruction.mem_allTexts isAction isText))
  count := by
    rintro repetition rfl number
    apply Quiet.bindCounter (quiet_counter number)
    exact repetition.count.quiet_trimmed
      (quiet _ (List.mem_append_right _ (List.mem_singleton_self _)))

/-- Without hooks, the program of a forest in whose texts the word does not occur is quiet. -/
theorem Forest.quiet_program {settings : Settings} {population : Population}
    (hooksOff : settings.profiling.emitHooks = false) {forest : Forest Kind.Builtin}
    (quiet : ∀ event ∈ Forest.members forest, AllQuiet event.behavior.texts) :
    (Forest.program settings population forest).Quiet := by
  have gives : Naming.Gives IsQuietName := ⟨quiet_flag, quiet_counter⟩
  have noHooks : settings.Hooks Statement.Quiet := by
    intro hooksOn
    rw [hooksOff] at hooksOn
    cases hooksOn
  exact MadeOf.quiet (Forest.madeOf_program gives noHooks fun event isMember =>
    Kind.Builtin.provides_quiet (quiet event isMember))

end EventSheet
