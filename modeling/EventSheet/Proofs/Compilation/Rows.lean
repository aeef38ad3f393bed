import EventSheet.Proofs.Compilation.ProgramLines
import EventSheet.Proofs.Compilation.WellFormed
namespace EventSheet.BlockProgram

/-! # Reading blocks off lines

What a line says about names and blocks is read off its text alone: which name a `let` binds, which
name a header uses, and where blocks open and close. In the text of a well-formed program nothing
that was typed is taken for any of these. -/

/-- What a line does to the blocks around it. -/
inductive Row where
  | binds (name : String)
  /-- A header, with the name it uses. -/
  | opens (use : Option String)
  /-- The end of a block that goes on with another one. -/
  | turns (use : Option String)
  | closes
  | other
deriving DecidableEq

/-! ## Reading -/

/-- The rest of a line that begins like this. -/
def behind? (opening : String) (line : List Char) : Option (List Char) :=
  if opening.toList.isPrefixOf line then some (line.drop opening.toList.length) else none

def wordOf (rest : List Char) : String := String.ofList (rest.takeWhile isWordCharacter)

def readRow (line : List Char) : Row :=
  if line = "\x7b".toList then .opens none
  else if line = "\x7d".toList then .closes
  else if line = "\x7d else \x7b".toList then .turns none
  else
    let read := ((behind? "\x7d else if " line).map fun rest => Row.turns (some (wordOf rest))) <|>
      ((behind? "if " line).map fun rest => Row.opens (some (wordOf rest))) <|>
      ((behind? "for _ in 0.." line).map fun rest => Row.opens (some (wordOf rest))) <|>
      (behind? "let " line).map fun rest => Row.binds (wordOf rest)
    read.getD .other

theorem wordOf_append {name : String} (identifier : IsIdentifier name) {separator : Char}
    (noWord : isWordCharacter separator = false) (rest : List Char) :
    wordOf (name.toList ++ separator :: rest) = name := by
  have all := List.all_eq_true.mp identifier.word
  rw [wordOf, List.takeWhile_append_of_pos all, List.takeWhile_cons_of_neg (by simp [noWord]),
    List.append_nil, String.ofList_toList]

theorem readRow_binding {name : String} (identifier : IsIdentifier name) (rest : List Char) :
    readRow ("let ".toList ++ (name.toList ++ ' ' :: rest)) = .binds name := by
  have read : readRow ("let ".toList ++ (name.toList ++ ' ' :: rest)) =
      .binds (wordOf (name.toList ++ ' ' :: rest)) := rfl
  rw [read, wordOf_append identifier (by decide)]

theorem readRow_if {flag : String} (identifier : IsIdentifier flag) :
    readRow ("if ".toList ++ (flag.toList ++ " \x7b".toList)) = .opens (some flag) := by
  have read : readRow ("if ".toList ++ (flag.toList ++ " \x7b".toList)) =
      .opens (some (wordOf (flag.toList ++ ' ' :: "\x7b".toList))) := rfl
  rw [read, wordOf_append identifier (by decide)]

theorem readRow_for {counter : String} (identifier : IsIdentifier counter) :
    readRow ("for _ in 0..".toList ++ (counter.toList ++ " \x7b".toList)) =
      .opens (some counter) := by
  have read : readRow ("for _ in 0..".toList ++ (counter.toList ++ " \x7b".toList)) =
      .opens (some (wordOf (counter.toList ++ ' ' :: "\x7b".toList))) := rfl
  rw [read, wordOf_append identifier (by decide)]

theorem readRow_elseIf {flag : String} (identifier : IsIdentifier flag) :
    readRow ("\x7d else if ".toList ++ (flag.toList ++ " \x7b".toList)) =
      .turns (some flag) := by
  have read : readRow ("\x7d else if ".toList ++ (flag.toList ++ " \x7b".toList)) =
      .turns (some (wordOf (flag.toList ++ ' ' :: "\x7b".toList))) := rfl
  rw [read, wordOf_append identifier (by decide)]

/-- A call does not begin like anything else: its name ends with a parenthesis. -/
theorem not_isPrefixOf_call {word more name rest : List Char} {separator : Char}
    (isWord : ∀ character ∈ word, isWordCharacter character = true)
    (isName : ∀ character ∈ name, isWordCharacter character = true)
    (noWord : isWordCharacter separator = false) (different : separator ≠ '(') :
    ¬ word ++ separator :: more <+: name ++ '(' :: rest := by
  rintro ⟨behind, same⟩
  have parenthesis : isWordCharacter '(' = false := by decide
  have names := congrArg (List.takeWhile isWordCharacter) same
  rw [List.append_assoc, List.takeWhile_append_of_pos isWord, List.takeWhile_append_of_pos isName,
    List.cons_append, List.takeWhile_cons_of_neg (by simp [noWord]),
    List.takeWhile_cons_of_neg (by simp [parenthesis]), List.append_nil, List.append_nil] at names
  rw [names, List.append_assoc, List.append_cancel_left_eq, List.cons_append,
    List.cons.injEq] at same
  exact different same.1

theorem behind?_call {text : String} (word : List Char) {more : List Char} {separator : Char}
    (split : text.toList = word ++ separator :: more) (isWord : word.all isWordCharacter = true)
    (noWord : isWordCharacter separator = false) (different : separator ≠ '(')
    {name : String} (identifier : IsIdentifier name) (rest : List Char) :
    behind? text (name.toList ++ '(' :: rest) = none := by
  have isName := List.all_eq_true.mp identifier.word
  rw [behind?, split, if_neg]
  rw [List.isPrefixOf_iff_prefix]
  exact not_isPrefixOf_call (List.all_eq_true.mp isWord) isName noWord different

theorem readRow_call {name : String} (identifier : IsIdentifier name) (rest : List Char) :
    readRow (name.toList ++ '(' :: rest) = .other := by
  have isName := List.all_eq_true.mp identifier.word
  have noBrace {line more : List Char} {brace : Char} (split : line = brace :: more)
      (noWord : isWordCharacter brace = false) (different : brace ≠ '(') :
      ¬ name.toList ++ '(' :: rest = line := by
    intro same
    have isPrefix : [] ++ brace :: more <+: name.toList ++ '(' :: rest := by
      rw [same, split]
      exact List.prefix_refl _
    exact not_isPrefixOf_call (List.forall_mem_nil _) isName noWord different isPrefix
  have opening : ¬ name.toList ++ '(' :: rest = "\x7b".toList :=
    noBrace rfl (by decide) (by decide)
  have closing : ¬ name.toList ++ '(' :: rest = "\x7d".toList :=
    noBrace rfl (by decide) (by decide)
  have turning : ¬ name.toList ++ '(' :: rest = "\x7d else \x7b".toList :=
    noBrace rfl (by decide) (by decide)
  have noElseIf : behind? "\x7d else if " (name.toList ++ '(' :: rest) = none :=
    behind?_call [] rfl (by decide) (by decide) (by decide) identifier rest
  have noIf : behind? "if " (name.toList ++ '(' :: rest) = none :=
    behind?_call "if".toList rfl (by decide) (by decide) (by decide) identifier rest
  have noFor : behind? "for _ in 0.." (name.toList ++ '(' :: rest) = none :=
    behind?_call "for".toList rfl (by decide) (by decide) (by decide) identifier rest
  have noLet : behind? "let " (name.toList ++ '(' :: rest) = none :=
    behind?_call "let".toList rfl (by decide) (by decide) (by decide) identifier rest
  rw [readRow, if_neg opening, if_neg closing, if_neg turning, noElseIf, noIf, noFor, noLet]
  rfl

/-! ## Texts on one line -/

instance (text : String) : Decidable (IsOneLine text) :=
  inferInstanceAs (Decidable (¬ _))

theorem isOneLine_append {first second : String} :
    IsOneLine (first ++ second) ↔ IsOneLine first ∧ IsOneLine second := by
  rw [IsOneLine, String.toList_append, List.mem_append, not_or, IsOneLine, IsOneLine]

theorem isOneLine_intercalate {separator : String} (separates : IsOneLine separator) :
    ∀ {texts : List String}, (∀ text ∈ texts, IsOneLine text) →
      IsOneLine (separator.intercalate texts)
  | [], _ => by
      rw [String.intercalate_nil]
      exact List.not_mem_nil
  | [text], oneLine => by
      rw [String.intercalate_singleton]
      exact oneLine text List.mem_cons_self
  | text :: next :: rest, oneLine => by
      rw [List.forall_mem_cons] at oneLine
      rw [String.intercalate_cons_cons, isOneLine_append, isOneLine_append]
      exact ⟨⟨oneLine.1, separates⟩, isOneLine_intercalate separates oneLine.2⟩

theorem IsIdentifier.isOneLine {name : String} (identifier : IsIdentifier name) :
    IsOneLine name := by
  intro isNewline
  have isWord := List.all_eq_true.mp identifier.word _ isNewline
  revert isWord
  decide

mutual
theorem Operand.WellFormed.isOneLine : ∀ {operand : Operand}, operand.WellFormed →
    IsOneLine operand.print
  | .call name arguments operands, wellFormed => by
      rcases wellFormed with ⟨identifier, oneLine, inner⟩
      rw [Operand.print, isOneLine_append, isOneLine_append, isOneLine_append]
      refine ⟨⟨⟨identifier.isOneLine, by decide⟩, ?_⟩, by decide⟩
      apply isOneLine_intercalate (by decide)
      intro text isText
      rcases List.mem_append.mp isText with isArgument | isOperand
      · exact oneLine text isArgument
      · exact Operand.AllWellFormed.isOneLine inner text isOperand
  | .negation operand, wellFormed => by
      rw [Operand.print, isOneLine_append]
      exact ⟨by decide, Operand.WellFormed.isOneLine wellFormed⟩
  | .never, _ => by
      rw [Operand.print]
      decide

theorem Operand.AllWellFormed.isOneLine : ∀ {operands : List Operand},
    Operand.AllWellFormed operands → ∀ text ∈ Operand.printAll operands, IsOneLine text
  | [], _ => fun _ isText => nomatch isText
  | head :: tail, wellFormed => by
      rw [Operand.printAll, List.forall_mem_cons]
      exact ⟨Operand.WellFormed.isOneLine wellFormed.1,
        Operand.AllWellFormed.isOneLine wellFormed.2⟩
end

theorem isOneLine_printConjunction {operands : List Operand}
    (wellFormed : Operand.AllWellFormed operands) : IsOneLine (printConjunction operands) := by
  rw [printConjunction]
  split
  · decide
  · exact isOneLine_intercalate (by decide) wellFormed.isOneLine

/-! ## The rows of a program -/

mutual
def Statement.rows : Statement → List Row
  | .bindFlag flag _ => [.binds flag]
  | .bindCounter counter _ => [.binds counter]
  | .evaluate _ => [.other]
  | .block body => .opens none :: rows body ++ [.closes]
  | .loop counter body => .opens (some counter) :: rows body ++ [.closes]
  | .conditional flag body alternative => .opens (some flag) :: rows body ++ alternative.rows

def Alternative.rows : Alternative → List Row
  | .done => [.closes]
  | .otherwise body => .turns none :: rows body ++ [.closes]
  | .elseIf flag body alternative => .turns (some flag) :: rows body ++ alternative.rows

def rows : List Statement → List Row
  | [] => []
  | head :: tail => head.rows ++ rows tail
end

theorem rows_append (first second : BlockProgram) :
    rows (first ++ second) = rows first ++ rows second := by
  induction first with
  | nil => rfl
  | cons head tail induction =>
      rw [List.cons_append, rows, rows, induction, List.append_assoc]

/-- The lines are read as the rows, once they are put together. -/
structure ReadAs (lines : List (List Char)) (rows : List Row) : Prop where
  stay : ∀ line ∈ lines, Text.Stays line
  read : lines.map readRow = rows

namespace ReadAs

variable {first second : List (List Char)} {rows others : List Row}

theorem nil : ReadAs [] [] := ⟨List.forall_mem_nil _, rfl⟩

theorem append (isFirst : ReadAs first rows) (isSecond : ReadAs second others) :
    ReadAs (first ++ second) (rows ++ others) where
  stay := by
    rw [List.forall_mem_append]
    exact ⟨isFirst.stay, isSecond.stay⟩
  read := by
    rw [List.map_append, isFirst.read, isSecond.read]

theorem line {line : List Char} {row : Row} (stays : Text.Stays line) (read : readRow line = row) :
    ReadAs [line] [row] where
  stay := by
    rw [List.forall_mem_singleton]
    exact stays
  read := by
    rw [List.map_singleton, read]

theorem cons {line : List Char} {row : Row} (stays : Text.Stays line) (read : readRow line = row)
    (isRest : ReadAs first rows) : ReadAs (line :: first) (row :: rows) :=
  (ReadAs.line stays read).append isRest

end ReadAs

/-! ## Single lines -/

theorem stays_of_text {text : String} (oneLine : IsOneLine text) (first : Char)
    (middle : List Char) (last : Char) (split : text.toList = first :: (middle ++ [last]))
    (solid : Text.isBlank first = false) (ends : last ≠ '\r') : Text.Stays text.toList := by
  rw [IsOneLine, split] at oneLine
  rw [split]
  exact Text.Stays.of_ends solid ends oneLine

theorem isBlank_of_isAlphanum {character : Char} (isAlphanumeric : character.isAlphanum = true) :
    Text.isBlank character = false := by
  delta Char.isAlphanum Char.isAlpha Char.isUpper Char.isLower Char.isDigit at isAlphanumeric
  simp only [Bool.or_eq_true, Bool.and_eq_true, decide_eq_true_eq, UInt32.le_iff_toNat_le,
    ge_iff_le, Char.toNat_val, Char.reduceToNat] at isAlphanumeric
  rw [Bool.eq_false_iff]
  intro blank
  simp only [Text.isBlank, Text.blankRanges, List.any_cons, List.any_nil, Bool.or_false,
    Bool.or_eq_true, Bool.and_eq_true, decide_eq_true_eq] at blank
  omega

theorem isBlank_of_isWordCharacter {character : Char}
    (isWord : isWordCharacter character = true) : Text.isBlank character = false := by
  rw [isWordCharacter, Bool.or_eq_true, Bool.or_eq_true] at isWord
  rcases isWord with (isAlphanumeric | isUnderscore) | isOther
  · exact isBlank_of_isAlphanum isAlphanumeric
  · rw [of_decide_eq_true isUnderscore]
    decide
  · rw [Bool.and_eq_true, Bool.not_eq_true'] at isOther
    exact isOther.2

theorem stays_bindFlag {flag expression : String} (identifier : IsIdentifier flag)
    (oneLine : IsOneLine expression) :
    Text.Stays ("let " ++ flag ++ " = " ++ expression ++ ";").toList := by
  refine stays_of_text ?_ 'l' ("et ".toList ++ flag.toList ++ " = ".toList ++ expression.toList) ';'
    (by simp) (by decide) (by decide)
  simp only [isOneLine_append]
  exact ⟨⟨⟨⟨by decide, identifier.isOneLine⟩, by decide⟩, oneLine⟩, by decide⟩

theorem stays_bindCounter {counter count : String} (identifier : IsIdentifier counter)
    (oneLine : IsOneLine count) :
    Text.Stays ("let " ++ counter ++ " = (" ++ count ++ ") as usize;").toList := by
  refine stays_of_text ?_ 'l' ("et ".toList ++ counter.toList ++ " = (".toList ++
    count.toList ++ ") as usize".toList) ';' (by simp) (by decide) (by decide)
  simp only [isOneLine_append]
  exact ⟨⟨⟨⟨by decide, identifier.isOneLine⟩, by decide⟩, oneLine⟩, by decide⟩

theorem stays_evaluate {text : String} (oneLine : IsOneLine text) {first : Char}
    {rest : List Char} (split : text.toList = first :: rest) (solid : Text.isBlank first = false) :
    Text.Stays (text ++ ";").toList := by
  have wholeLine : IsOneLine (text ++ ";") := isOneLine_append.mpr ⟨oneLine, by decide⟩
  exact stays_of_text wholeLine first rest ';' (by simp [split]) solid (by decide)

theorem readAs_bindFlag {flag : String} (identifier : IsIdentifier flag)
    {operands : List Operand} (wellFormed : Operand.AllWellFormed operands) :
    ReadAs (Statement.bindFlag flag operands).lines (Statement.bindFlag flag operands).rows := by
  apply ReadAs.line
  · exact stays_bindFlag identifier (isOneLine_printConjunction wellFormed)
  · have split : ("let " ++ flag ++ " = " ++ printConjunction operands ++ ";").toList =
        "let ".toList ++ (flag.toList ++
          ' ' :: ("= ".toList ++ (printConjunction operands).toList ++ ";".toList)) := by
      simp
    rw [split]
    exact readRow_binding identifier _

theorem readAs_bindCounter {counter count : String} (identifier : IsIdentifier counter)
    (oneLine : IsOneLine count) :
    ReadAs (Statement.bindCounter counter count).lines
      (Statement.bindCounter counter count).rows := by
  apply ReadAs.line
  · exact stays_bindCounter identifier oneLine
  · have split : ("let " ++ counter ++ " = (" ++ count ++ ") as usize;").toList =
        "let ".toList ++ (counter.toList ++
          ' ' :: ("= (".toList ++ count.toList ++ ") as usize;".toList)) := by
      simp
    rw [split]
    exact readRow_binding identifier _

theorem readAs_evaluate {operand : Operand} (wellFormed : operand.WellFormed) :
    ReadAs (Statement.evaluate operand).lines (Statement.evaluate operand).rows := by
  apply ReadAs.line
  · cases operand with
    | call name arguments operands =>
        rcases wellFormed.1.start with ⟨first, rest, split, _⟩
        have isWord : isWordCharacter first = true := by
          apply List.all_eq_true.mp wellFormed.1.word
          rw [split]
          exact List.mem_cons_self
        have starts : (Operand.call name arguments operands).print.toList = first :: (rest ++
            "(".toList ++ (", ".intercalate (arguments ++ Operand.printAll operands)).toList ++
              ")".toList) := by
          simp [Operand.print, split]
        exact stays_evaluate wellFormed.isOneLine starts (isBlank_of_isWordCharacter isWord)
    | negation operand =>
        have starts : (Operand.negation operand).print.toList = '!' :: operand.print.toList := by
          simp [Operand.print]
        exact stays_evaluate wellFormed.isOneLine starts (by decide)
    | never =>
        have starts : Operand.never.print.toList = 'f' :: "alse".toList := by simp [Operand.print]
        exact stays_evaluate wellFormed.isOneLine starts (by decide)
  · cases operand with
    | call name arguments operands =>
        have split : ((Operand.call name arguments operands).print ++ ";").toList =
            name.toList ++ '(' :: ((", ".intercalate
              (arguments ++ Operand.printAll operands)).toList ++ ");".toList) := by
          simp [Operand.print]
        rw [split]
        exact readRow_call wellFormed.1 _
    | negation operand =>
        have split : ((Operand.negation operand).print ++ ";").toList =
            '!' :: (operand.print.toList ++ ";".toList) := by
          simp [Operand.print]
        rw [split]
        rfl
    | never => rfl

/-- The lines that open and close blocks. -/
theorem stays_closing : Text.Stays "\x7d".toList := ⟨by decide, rfl, rfl⟩

theorem readAs_closing : ReadAs ["\x7d".toList] [.closes] := ReadAs.line stays_closing rfl

theorem stays_if {flag : String} (identifier : IsIdentifier flag) :
    Text.Stays ("if " ++ flag ++ " \x7b").toList := by
  refine stays_of_text ?_ 'i' ("f ".toList ++ flag.toList ++ " ".toList) '\x7b' (by simp)
    (by decide) (by decide)
  rw [isOneLine_append, isOneLine_append]
  exact ⟨⟨by decide, identifier.isOneLine⟩, by decide⟩

theorem stays_elseIf {flag : String} (identifier : IsIdentifier flag) :
    Text.Stays ("\x7d else if " ++ flag ++ " \x7b").toList := by
  refine stays_of_text ?_ '\x7d' (" else if ".toList ++ flag.toList ++ " ".toList) '\x7b'
    (by simp) (by decide) (by decide)
  rw [isOneLine_append, isOneLine_append]
  exact ⟨⟨by decide, identifier.isOneLine⟩, by decide⟩

theorem stays_for {counter : String} (identifier : IsIdentifier counter) :
    Text.Stays ("for _ in 0.." ++ counter ++ " \x7b").toList := by
  refine stays_of_text ?_ 'f' ("or _ in 0..".toList ++ counter.toList ++ " ".toList) '\x7b'
    (by simp) (by decide) (by decide)
  rw [isOneLine_append, isOneLine_append]
  exact ⟨⟨by decide, identifier.isOneLine⟩, by decide⟩

/-! ## Whole programs -/

mutual
theorem Statement.WellFormed.readAs : ∀ statement : Statement, statement.WellFormed →
    ReadAs statement.lines statement.rows
  | .bindFlag _ _, wellFormed => readAs_bindFlag wellFormed.1 wellFormed.2
  | .bindCounter _ _, wellFormed => readAs_bindCounter wellFormed.1 wellFormed.2
  | .evaluate _, wellFormed => readAs_evaluate wellFormed
  | .block body, wellFormed =>
      ReadAs.cons ⟨by decide, rfl, rfl⟩ rfl
        ((WellFormed.readAs body wellFormed).append readAs_closing)
  | .loop counter body, wellFormed => by
      have inner := WellFormed.readAs body wellFormed.2
      rw [Statement.lines, Statement.rows]
      apply ReadAs.cons (stays_for wellFormed.1) _ (inner.append readAs_closing)
      rw [String.toList_append, String.toList_append, List.append_assoc]
      exact readRow_for wellFormed.1
  | .conditional flag body alternative, wellFormed => by
      have inner := WellFormed.readAs body wellFormed.2.1
      have behind := Alternative.WellFormed.readAs alternative wellFormed.2.2
      rw [Statement.lines, Statement.rows]
      apply ReadAs.cons (stays_if wellFormed.1) _ (inner.append behind)
      rw [String.toList_append, String.toList_append, List.append_assoc]
      exact readRow_if wellFormed.1

theorem Alternative.WellFormed.readAs : ∀ alternative : Alternative, alternative.WellFormed →
    ReadAs alternative.lines alternative.rows
  | .done, _ => readAs_closing
  | .otherwise body, wellFormed =>
      ReadAs.cons ⟨by decide, rfl, rfl⟩ rfl
        ((WellFormed.readAs body wellFormed).append readAs_closing)
  | .elseIf flag body alternative, wellFormed => by
      have inner := WellFormed.readAs body wellFormed.2.1
      have behind := Alternative.WellFormed.readAs alternative wellFormed.2.2
      rw [Alternative.lines, Alternative.rows]
      apply ReadAs.cons (stays_elseIf wellFormed.1) _ (inner.append behind)
      rw [String.toList_append, String.toList_append, List.append_assoc]
      exact readRow_elseIf wellFormed.1

/-- The lines of a well-formed program are read as its rows. -/
theorem WellFormed.readAs : ∀ program : List Statement, WellFormed program →
    ReadAs (lines program) (rows program)
  | [], _ => ReadAs.nil
  | head :: tail, wellFormed =>
      (Statement.WellFormed.readAs head wellFormed.1).append (WellFormed.readAs tail wellFormed.2)
end

/-- What is read off the text of a well-formed program. -/
theorem readRows_print {program : BlockProgram} (wellFormed : WellFormed program) :
    (Text.trimmedLines (print program).toList).map readRow = rows program := by
  have readAs := WellFormed.readAs program wellFormed
  rw [toList_print, Text.trimmedLines_unlines_of_stays readAs.stay, readAs.read]

end EventSheet.BlockProgram
