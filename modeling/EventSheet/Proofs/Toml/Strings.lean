import EventSheet.Toml.Printer
import EventSheet.Toml.Scalar
namespace EventSheet.Toml

/-! # Reading printed strings

A string is read back from any of the four forms it may be printed in. The multi-line forms hold
their delimiter too, so what is read is followed with the delimiters that are still pending. -/

/-- The reader gives the answer if it may take a step for every character. -/
def Yields (reader : (fuel : Nat) → List Char → Option (String × List Char))
    (characters : List Char) (answer : String × List Char) : Prop :=
  ∀ fuel, characters.length < fuel → reader fuel characters = some answer

theorem Yields.of_step {reader next : (fuel : Nat) → List Char → Option (String × List Char)}
    {characters rest : List Char} {answer : String × List Char}
    (fewer : rest.length < characters.length)
    (step : ∀ fuel, reader (fuel + 1) characters = next fuel rest)
    (yields : Yields next rest answer) : Yields reader characters answer := by
  rintro (_ | fuel) enough
  · exact absurd enough (Nat.not_lt_zero _)
  · rw [step]
    exact yields fuel (Nat.lt_of_lt_of_le fewer (Nat.le_of_lt_succ enough))

/-! ## Escapes -/

theorem isPlain_of_not_control {character : Char} (notControl : isControl character = false)
    (notNewline : character ≠ '\n') : isPlain character = true := by
  simpa [isControl, notNewline] using notControl

theorem toNat_lt_of_isControl {character : Char} (control : isControl character = true) :
    character.toNat < 128 := by
  simp only [isControl, isPlain, Bool.and_eq_true, Bool.not_eq_true', Bool.or_eq_false_iff,
    Bool.and_eq_false_iff, decide_eq_false_iff_not] at control
  omega

theorem characterOfHex?_hexDigit : ∀ code < 128,
    characterOfHex? ['0', '0', hexDigit (code / 16), hexDigit (code % 16)] =
      some (Char.ofNat code) := by
  decide

/-- A character is escaped in front of everything that is neither itself nor a quote, and the rest
of the escape is read as the character. -/
theorem escape_cases (character : Char) :
    (character ≠ '\\' ∧ isControl character = false ∧ escape character = [character]) ∨
      ∃ mark escaped, escape character = '\\' :: mark :: escaped ∧
        mark ≠ '\n' ∧ mark ≠ '\r' ∧ isSpace mark = false ∧
        ∀ rest, readEscape? (mark :: escaped ++ rest) = some (character, rest) := by
  rw [escape]
  iterate 5
    split
    · next same =>
        rw [same]
        exact .inr ⟨_, _, rfl, by decide, by decide, by decide, fun rest => rfl⟩
  split
  · next control =>
      have hex := characterOfHex?_hexDigit character.toNat (toNat_lt_of_isControl control)
      rw [Char.ofNat_toNat] at hex
      refine .inr ⟨_, _, rfl, by decide, by decide, by decide, fun rest => ?_⟩
      simp [readEscape?, hex]
  · next notBackslash _ _ _ _ notControl =>
      exact .inl ⟨notBackslash, Bool.eq_false_iff.mpr notControl, rfl⟩

theorem newline?_of_ne {head : Char} (notNewline : head ≠ '\n') (notReturn : head ≠ '\r')
    (rest : List Char) : newline? (head :: rest) = none := by
  rw [newline?]
  · exact fun _ same => notNewline (List.cons.inj same).1
  · exact fun _ same => notReturn (List.cons.inj same).1

/-- Neither a quote nor a newline stands as it is behind other quotes. -/
theorem escapeMulti_of_ne {head : Char} (notQuote : head ≠ '"') (notNewline : head ≠ '\n')
    (run : Nat) (tail : List Char) :
    escapeMulti run (head :: tail) = escape head ++ escapeMulti 0 tail := by
  rw [escapeMulti]
  · exact notQuote
  · exact notNewline

/-! ## Quotes on one line -/

theorem readBasic?_escapeBasic (taken : List Char) (fuel : Nat) (character : Char)
    (rest : List Char) :
    readBasic? taken (fuel + 1) (escapeBasic character ++ rest) =
      readBasic? (character :: taken) fuel rest := by
  rw [escapeBasic]
  split
  · next same =>
      rw [same]
      rfl
  · next notQuote =>
      split
      · next same =>
          rw [same]
          rfl
      · next notNewline =>
          rcases escape_cases character with
            ⟨notBackslash, notControl, same⟩ | ⟨mark, escaped, same, -, -, -, read⟩
          · have plain := isPlain_of_not_control notControl notNewline
            rw [same, List.cons_append, List.nil_append, readBasic?.eq_def]
            simp [plain]
          · rw [same, List.cons_append]
            simp only [readBasic?, read]

theorem exists_escape_eq_cons {character : Char} (notQuote : character ≠ '"') :
    ∃ head tail, escape character = head :: tail ∧ head ≠ '"' := by
  rcases escape_cases character with ⟨-, -, same⟩ | ⟨mark, escaped, same, -⟩
  · exact ⟨_, _, same, notQuote⟩
  · exact ⟨_, _, same, by decide⟩

theorem exists_escapeBasic_eq_cons (character : Char) :
    ∃ head tail, escapeBasic character = head :: tail ∧ head ≠ '"' := by
  rw [escapeBasic]
  split
  · exact ⟨_, _, rfl, by decide⟩
  · next notQuote =>
      split
      · exact ⟨_, _, rfl, by decide⟩
      · exact exists_escape_eq_cons notQuote

theorem yields_escapeBasic (characters taken rest : List Char) :
    Yields (readBasic? taken) (characters.flatMap escapeBasic ++ '"' :: rest)
      (String.ofList (taken.reverse ++ characters), rest) := by
  induction characters generalizing taken with
  | nil =>
      rintro (_ | fuel) enough
      · exact absurd enough (Nat.not_lt_zero _)
      · simp [readBasic?]
  | cons head tail induction =>
      have read := induction (head :: taken)
      rw [List.reverse_cons, List.append_assoc] at read
      rw [List.flatMap_cons, List.append_assoc]
      refine read.of_step ?_ fun fuel => readBasic?_escapeBasic taken fuel head _
      rcases exists_escapeBasic_eq_cons head with ⟨first, others, same, -⟩
      simp only [same, List.cons_append, List.length_cons, List.length_append]
      omega

/-! ## Apostrophes on one line -/

theorem readLiteral?_append (characters taken rest : List Char)
    (plain : ∀ character ∈ characters, isPlain character = true) (unmarked : '\'' ∉ characters) :
    readLiteral? taken (characters ++ '\'' :: rest) =
      some (String.ofList (taken.reverse ++ characters), rest) := by
  induction characters generalizing taken with
  | nil => simp [readLiteral?]
  | cons head tail induction =>
      have notMark : head ≠ '\'' := fun same => unmarked (same ▸ List.mem_cons_self)
      rw [List.cons_append, readLiteral?.eq_def]
      simp only [plain head List.mem_cons_self, if_true]
      rw [induction (head :: taken) (fun other member => plain other (.tail _ member))
        (fun member => unmarked (.tail _ member))]
      simp

/-! ## Delimiters in a row -/

section Delimiters

variable {delimiter head : Char} (distinct : head ≠ delimiter)
include distinct

theorem takeWhile_delimiters (count : Nat) (rest : List Char) :
    (List.replicate count delimiter ++ head :: rest).takeWhile (· = delimiter) =
      List.replicate count delimiter := by
  rw [List.takeWhile_append_of_pos (by simp), List.takeWhile_cons_of_neg (by simpa using distinct),
    List.append_nil]

/-- One or two delimiters do not close a string. -/
theorem closing?_pending {count : Nat} (few : count < 3) (rest : List Char) :
    closing? delimiter (List.replicate count delimiter ++ head :: rest) = (count, none) := by
  simp only [closing?, takeWhile_delimiters distinct, List.length_replicate, if_pos few]

/-- Up to two delimiters belong to the string that the next three close. -/
theorem closing?_closed {count : Nat} (few : count < 3) (rest : List Char) :
    closing? delimiter (List.replicate (count + 3) delimiter ++ head :: rest) =
      (count, some (head :: rest)) := by
  have many : ¬ count + 3 < 3 := by omega
  have kept : min (count + 3 - 3) 2 = count := by omega
  simp only [closing?, takeWhile_delimiters distinct, List.length_replicate, if_neg many, kept]
  rw [List.drop_left' (by simp)]

end Delimiters

theorem reverse_pending (count : Nat) (delimiter : Char) (taken : List Char) :
    (List.replicate count delimiter ++ taken).reverse =
      taken.reverse ++ List.replicate count delimiter := by
  rw [List.reverse_append, List.reverse_replicate]

/-- The reader of a string over several lines keeps delimiters, or ends at them, as `closing?`
says. -/
def ClosesAt (delimiter : Char)
    (reader : List Char → (fuel : Nat) → List Char → Option (String × List Char)) : Prop :=
  ∀ taken fuel rest, reader taken (fuel + 1) (delimiter :: rest) =
    match closing? delimiter (delimiter :: rest) with
    | (count, some behind) =>
        some (String.ofList (List.replicate count delimiter ++ taken).reverse, behind)
    | (count, none) =>
        reader (List.replicate count delimiter ++ taken) fuel ((delimiter :: rest).drop count)

theorem readMultiBasic?_closesAt : ClosesAt '"' readMultiBasic? := by
  intro taken fuel rest
  rw [readMultiBasic?]
  rcases closing? '"' ('"' :: rest) with ⟨count, _ | behind⟩ <;> rfl

theorem readMultiLiteral?_closesAt : ClosesAt '\'' readMultiLiteral? := by
  intro taken fuel rest
  rw [readMultiLiteral?]
  rcases closing? '\'' ('\'' :: rest) with ⟨count, _ | behind⟩ <;> rfl

namespace ClosesAt

variable {delimiter head : Char} {taken rest : List Char} {answer : String × List Char}
  {reader : List Char → (fuel : Nat) → List Char → Option (String × List Char)}

/-- Pending delimiters are read in one step. -/
theorem pending (closes : ClosesAt delimiter reader) {count : Nat} (few : count < 3)
    (distinct : head ≠ delimiter)
    (yields : Yields (reader (List.replicate count delimiter ++ taken)) (head :: rest) answer) :
    Yields (reader taken) (List.replicate count delimiter ++ head :: rest) answer := by
  cases count with
  | zero => exact yields
  | succ count =>
      have closed := closing?_pending distinct few rest
      refine yields.of_step ?_ fun fuel => ?_
      · rw [List.length_append, List.length_replicate]
        omega
      · rw [List.replicate_succ, List.cons_append] at closed ⊢
        rw [closes]
        simp only [closed]
        rw [← List.cons_append, ← List.replicate_succ, List.drop_left' List.length_replicate]

theorem closed (closes : ClosesAt delimiter reader) {count : Nat} (few : count < 3)
    (distinct : head ≠ delimiter) :
    Yields (reader taken)
      (List.replicate count delimiter ++ delimiter :: delimiter :: delimiter :: head :: rest)
      (String.ofList (taken.reverse ++ List.replicate count delimiter), head :: rest) := by
  have closing :
      List.replicate count delimiter ++ delimiter :: delimiter :: delimiter :: head :: rest =
        List.replicate (count + 3) delimiter ++ head :: rest := by
    rw [← List.replicate_append_replicate, List.append_assoc]
    rfl
  have closed := closing?_closed distinct few rest
  rw [closing]
  rw [List.replicate_succ, List.cons_append] at closed ⊢
  rintro (_ | fuel) enough
  · exact absurd enough (Nat.not_lt_zero _)
  · rw [closes]
    simp only [closed, reverse_pending]

end ClosesAt

/-- What the text behind pending delimiters adds to, once those are taken. -/
theorem ofList_pending (count : Nat) (delimiter head : Char) (taken text : List Char) :
    taken.reverse ++ (List.replicate count delimiter ++ head :: text) =
      (head :: (List.replicate count delimiter ++ taken)).reverse ++ text := by
  rw [List.reverse_cons, reverse_pending]
  simp

theorem replicate_append_cons (count : Nat) (delimiter : Char) (rest : List Char) :
    List.replicate count delimiter ++ delimiter :: rest =
      List.replicate (count + 1) delimiter ++ rest := by
  rw [List.replicate_succ', List.append_assoc]
  rfl

/-! ## Quotes over several lines -/

namespace Yields

variable {taken rest : List Char} {answer : String × List Char} {head : Char}

theorem multiBasic_newline (yields : Yields (readMultiBasic? ('\n' :: taken)) rest answer) :
    Yields (readMultiBasic? taken) ('\n' :: rest) answer :=
  yields.of_step (Nat.lt_succ_self _) fun _ => rfl

theorem multiBasic_escape (notQuote : head ≠ '"') (notNewline : head ≠ '\n')
    (yields : Yields (readMultiBasic? (head :: taken)) rest answer) :
    Yields (readMultiBasic? taken) (escape head ++ rest) answer := by
  rcases escape_cases head with
    ⟨notBackslash, notControl, same⟩ | ⟨mark, escaped, same, notBreak, notReturn, solid, read⟩
  · have plain := isPlain_of_not_control notControl notNewline
    have notReturn : head ≠ '\r' := by
      rintro rfl
      cases plain
    rw [same, List.cons_append, List.nil_append]
    refine yields.of_step (Nat.lt_succ_self _) fun fuel => ?_
    rw [readMultiBasic?.eq_def]
    simp only [newline?_of_ne notNewline notReturn rest, plain, if_true]
  · have unbroken : newline? (skipSpaces (mark :: escaped ++ rest)) = none := by
      rw [List.cons_append, skipSpaces, List.dropWhile_cons_of_neg (by rw [solid]; decide)]
      exact newline?_of_ne notBreak notReturn _
    rw [same, List.cons_append]
    refine yields.of_step ?_ fun fuel => ?_
    · simp only [List.cons_append, List.length_cons, List.length_append]
      omega
    · rw [readMultiBasic?]
      simp only [unbroken, read]

theorem multiBasic_escapedQuote (yields : Yields (readMultiBasic? ('"' :: taken)) rest answer) :
    Yields (readMultiBasic? taken) ('\\' :: '"' :: rest) answer := by
  refine yields.of_step ?_ fun fuel => ?_
  · simp only [List.length_cons]
    omega
  · rfl

end Yields

/-- Text behind `count` quotes that are still to be read is read back with them. -/
theorem yields_escapeMulti (tail text : List Char) :
    ∀ (count : Nat) (taken : List Char), count < 3 →
      Yields (readMultiBasic? taken)
        (List.replicate count '"' ++ (escapeMulti count text ++ '"' :: '"' :: '"' :: '\n' :: tail))
        (String.ofList (taken.reverse ++ (List.replicate count '"' ++ text)), '\n' :: tail) := by
  induction text with
  | nil =>
      intro count taken few
      rw [List.append_nil]
      exact readMultiBasic?_closesAt.closed few (by decide)
  | cons head text induction =>
      intro count taken few
      have later (taken : List Char) : Yields (readMultiBasic? taken)
          (escapeMulti 0 text ++ '"' :: '"' :: '"' :: '\n' :: tail)
          (String.ofList (taken.reverse ++ text), '\n' :: tail) := induction 0 taken (by decide)
      by_cases isQuote : head = '"'
      · subst isQuote
        rw [escapeMulti]
        by_cases third : count = 2
        · rw [if_pos third, ofList_pending]
          exact readMultiBasic?_closesAt.pending few (by decide) (later _).multiBasic_escapedQuote
        · -- a quote that stands as it is becomes one more of those still to be read
          rw [if_neg third, List.cons_append, replicate_append_cons, replicate_append_cons]
          exact induction (count + 1) taken (by omega)
      · rw [ofList_pending]
        by_cases isNewline : head = '\n'
        · subst isNewline
          exact readMultiBasic?_closesAt.pending few isQuote (later _).multiBasic_newline
        · have read := (later (head :: (List.replicate count '"' ++ taken))).multiBasic_escape
            isQuote isNewline
          rcases exists_escape_eq_cons isQuote with ⟨first, others, same, notQuote⟩
          rw [escapeMulti_of_ne isQuote isNewline, List.append_assoc]
          rw [same, List.cons_append] at read ⊢
          exact readMultiBasic?_closesAt.pending few notQuote read

/-! ## Apostrophes over several lines -/

namespace Yields

variable {taken rest : List Char} {answer : String × List Char} {head : Char}

theorem multiLiteral_cons (unmarked : head ≠ '\'') (notControl : isControl head = false)
    (yields : Yields (readMultiLiteral? (head :: taken)) rest answer) :
    Yields (readMultiLiteral? taken) (head :: rest) answer := by
  refine yields.of_step (Nat.lt_succ_self _) fun fuel => ?_
  by_cases isNewline : head = '\n'
  · subst isNewline
    rfl
  · have plain := isPlain_of_not_control notControl isNewline
    have notReturn : head ≠ '\r' := by
      rintro rfl
      cases plain
    rw [readMultiLiteral?.eq_def]
    simp only [newline?_of_ne isNewline notReturn rest, plain, if_true]

end Yields

/-- A text is read back as it is, with the `count` apostrophes in front of it that are still to be
read. -/
theorem yields_multiLiteral (tail text : List Char)
    (noControl : ∀ character ∈ text, isControl character = false) :
    ∀ (count : Nat) (taken : List Char), longestRun '\'' count text < 3 →
      Yields (readMultiLiteral? taken)
        (List.replicate count '\'' ++ (text ++ '\'' :: '\'' :: '\'' :: '\n' :: tail))
        (String.ofList (taken.reverse ++ (List.replicate count '\'' ++ text)), '\n' :: tail) := by
  induction text with
  | nil =>
      intro count taken few
      rw [List.append_nil]
      exact readMultiLiteral?_closesAt.closed few (by decide)
  | cons head text induction =>
      intro count taken few
      have later := induction fun character member => noControl character (.tail _ member)
      rw [longestRun] at few
      by_cases isMark : head = '\''
      · rw [if_pos isMark] at few
        rw [isMark, List.cons_append, replicate_append_cons, replicate_append_cons]
        exact later (count + 1) taken few
      · rw [if_neg isMark, Nat.max_lt] at few
        have read : Yields (readMultiLiteral? (head :: (List.replicate count '\'' ++ taken))) _ _ :=
          later 0 _ few.2
        rw [ofList_pending]
        exact readMultiLiteral?_closesAt.pending few.1 isMark
          (read.multiLiteral_cons isMark (noControl head List.mem_cons_self))

/-! ## Which form is chosen -/

theorem plain_of_choose_literal {text : List Char} (chosen : StringForm.choose text = .literal) :
    (∀ character ∈ text, isPlain character = true) ∧ '\'' ∉ text ∧ text ≠ [] := by
  rw [StringForm.choose] at chosen
  split at chosen
  · cases chosen
  split at chosen
  · next notBasic suits =>
      simp only [Bool.and_eq_true, Bool.not_eq_true', List.contains_eq_mem, decide_eq_false_iff_not,
        List.any_eq_false, Bool.not_eq_true] at suits
      rcases suits with ⟨⟨unmarked, noNewline⟩, noControl⟩
      refine ⟨fun character member => ?_, unmarked, ?_⟩
      · exact isPlain_of_not_control (noControl character member) fun same =>
          noNewline (same ▸ member)
      · rintro rfl
        exact notBasic rfl
  · split at chosen
    · cases chosen
    split at chosen
    · cases chosen
    split at chosen <;> cases chosen

theorem noControl_of_choose_multiLiteral {text : List Char}
    (chosen : StringForm.choose text = .multiLiteral) :
    (∀ character ∈ text, isControl character = false) ∧ longestRun '\'' 0 text < 3 := by
  rw [StringForm.choose] at chosen
  split at chosen
  · cases chosen
  split at chosen
  · cases chosen
  split at chosen
  · cases chosen
  split at chosen
  · next suits =>
      simpa only [Bool.and_eq_true, Bool.not_eq_true', List.any_eq_false, decide_eq_true_eq,
        Bool.not_eq_true] using suits
  · split at chosen <;> cases chosen

/-! ## Strings of any form -/

/-- The break in front of a text of several lines is dropped, and nothing else is. -/
theorem dropFirstBreak_openingBreak (text rest : List Char) {body : List Char}
    (unbroken : '\n' ∉ text → newline? (body ++ rest) = none) :
    dropFirstBreak ((openingBreak text).toList ++ (body ++ rest)) = body ++ rest := by
  rw [openingBreak]
  split
  · rfl
  · next single =>
      have none := unbroken (by simpa using single)
      show (newline? (body ++ rest)).getD (body ++ rest) = _
      rw [none]
      rfl

theorem newline?_escapeMulti {text rest : List Char} (single : '\n' ∉ text) :
    newline? (escapeMulti 0 text ++ '"' :: rest) = none := by
  cases text with
  | nil => rfl
  | cons head text =>
      have notNewline : head ≠ '\n' := fun same => single (same ▸ List.mem_cons_self)
      by_cases isQuote : head = '"'
      · subst isQuote
        rfl
      · rw [escapeMulti_of_ne isQuote notNewline]
        rcases escape_cases head with ⟨-, notControl, same⟩ | ⟨mark, others, same, -⟩
        · rw [same]
          refine newline?_of_ne notNewline ?_ _
          rintro rfl
          cases notControl
        · rw [same]
          rfl

theorem readString?_basic {first : Char} (notQuote : first ≠ '"') (rest : List Char) :
    readString? ('"' :: first :: rest) = readBasic? [] (rest.length + 3) (first :: rest) := by
  rw [readString?.eq_def]
  simp [notQuote]

theorem readString?_literal {first : Char} (unmarked : first ≠ '\'') (rest : List Char) :
    readString? ('\'' :: first :: rest) = readLiteral? [] (first :: rest) := by
  rw [readString?.eq_def]
  simp [unmarked]

theorem newline?_of_noControl {text rest : List Char}
    (noControl : ∀ character ∈ text, isControl character = false) (single : '\n' ∉ text) :
    newline? (text ++ '\'' :: rest) = none := by
  cases text with
  | nil => rfl
  | cons head text =>
      refine newline?_of_ne (fun same => single (same ▸ List.mem_cons_self)) ?_ _
      rintro rfl
      cases noControl '\r' List.mem_cons_self

section Lines

variable {opening body : List Char} {answer : String × List Char}
  (dropped : dropFirstBreak (opening ++ body) = body)
include dropped

theorem readString?_multiBasic (yields : Yields (readMultiBasic? []) body answer) :
    readString? ('"' :: '"' :: '"' :: (opening ++ body)) = some answer := by
  show readMultiBasic? [] _ (dropFirstBreak (opening ++ body)) = some answer
  rw [dropped]
  apply yields
  simp only [List.length_cons, List.length_append]
  omega

theorem readString?_multiLiteral (yields : Yields (readMultiLiteral? []) body answer) :
    readString? ('\'' :: '\'' :: '\'' :: (opening ++ body)) = some answer := by
  show readMultiLiteral? [] _ (dropFirstBreak (opening ++ body)) = some answer
  rw [dropped]
  apply yields
  simp only [List.length_cons, List.length_append]
  omega

end Lines

/-- Whatever the text, it is read back from the form it is printed in. -/
theorem readString?_printString (text : String) (tail : List Char) :
    readString? ((printString text).toList ++ '\n' :: tail) = some (text, '\n' :: tail) := by
  have whole : String.ofList ([].reverse ++ text.toList) = text := String.ofList_toList
  rw [printString]
  split
  · next chosen =>
      simp only [String.toList_append, String.toList_ofList, List.append_assoc]
      have read := yields_escapeBasic text.toList [] ('\n' :: tail)
      rw [whole] at read
      cases characters : text.toList with
      | nil =>
          rw [String.toList_eq_nil_iff.mp characters]
          rfl
      | cons head others =>
          rcases exists_escapeBasic_eq_cons head with ⟨first, behind, same, notQuote⟩
          rw [characters, List.flatMap_cons, same] at read
          rw [List.flatMap_cons, same]
          refine (readString?_basic notQuote _).trans (read _ ?_)
          simp
  · next chosen =>
      rcases plain_of_choose_literal chosen with ⟨plain, unmarked, nonempty⟩
      simp only [String.toList_append, List.append_assoc]
      have read := readLiteral?_append text.toList [] ('\n' :: tail) plain unmarked
      rw [whole] at read
      rcases List.exists_cons_of_ne_nil nonempty with ⟨first, others, characters⟩
      rw [characters] at read unmarked ⊢
      refine (readString?_literal ?_ _).trans read
      exact fun same => unmarked (same ▸ List.mem_cons_self)
  · next chosen =>
      simp only [String.toList_append, String.toList_ofList, List.append_assoc]
      have read := yields_escapeMulti tail text.toList 0 [] (by decide)
      rw [List.replicate_zero, List.nil_append, List.nil_append, whole] at read
      have dropped := dropFirstBreak_openingBreak text.toList ('"' :: '"' :: '"' :: '\n' :: tail)
        newline?_escapeMulti
      have opened := readString?_multiBasic dropped read
      exact opened
  · next chosen =>
      rcases noControl_of_choose_multiLiteral chosen with ⟨noControl, few⟩
      simp only [String.toList_append, List.append_assoc]
      have read := yields_multiLiteral tail text.toList noControl 0 [] few
      rw [List.replicate_zero, List.nil_append, List.nil_append, whole] at read
      have dropped := dropFirstBreak_openingBreak text.toList ('\'' :: '\'' :: '\'' :: '\n' :: tail)
        (newline?_of_noControl noControl)
      have opened := readString?_multiLiteral dropped read
      exact opened

end EventSheet.Toml
