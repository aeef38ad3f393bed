import EventSheet.Json.Printer
import EventSheet.Proofs.Json.Members
import Mathlib.Algebra.Ring.Nat
namespace EventSheet.Json

/-! # Reading printed text

Pretty text reads back as the document of the value it was printed from, whatever text follows
it, as long as that does not continue a number. -/

namespace Document

/-! ## Numbers -/

/-- The text does not continue a number that stands in front of it. -/
def EndsNumber (rest : List Char) : Prop :=
  ∀ head ∈ rest.head?, isDigit head = false ∧ head ≠ '.' ∧ head ≠ 'e' ∧ head ≠ 'E'

theorem endsNumber_cons {head : Char} {rest : List Char}
    (ends : isDigit head = false ∧ head ≠ '.' ∧ head ≠ 'e' ∧ head ≠ 'E') :
    EndsNumber (head :: rest) := by
  intro other isHead
  cases isHead
  exact ends

theorem isDigit_of_mem_toDigits {value : Nat} {character : Char}
    (isMember : character ∈ Nat.toDigits 10 value) : isDigit character = true := by
  have isDecimal := Nat.isDigit_of_mem_toDigits (by decide) (by decide) isMember
  simpa [Char.isDigit, isDigit, Char.le_def, UInt32.le_iff_toNat_le] using isDecimal

theorem isSpace_of_isDigit {character : Char} (digit : isDigit character = true) :
    isSpace character = false := by
  rw [Bool.eq_false_iff]
  intro space
  simp only [isSpace, Bool.or_eq_true, decide_eq_true_eq] at space
  rcases space with ((isBlank | isTab) | isNewline) | isReturn <;> subst character <;> cases digit

theorem exists_toDigits_eq_cons (value : Nat) :
    ∃ head tail, Nat.toDigits 10 value = head :: tail ∧ isDigit head = true := by
  rcases List.exists_cons_of_ne_nil (Nat.toDigits_ne_nil : Nat.toDigits 10 value ≠ []) with
    ⟨head, tail, digits⟩
  have isMember : head ∈ Nat.toDigits 10 value := by
    rw [digits]
    exact List.mem_cons_self
  exact ⟨head, tail, digits, isDigit_of_mem_toDigits isMember⟩

theorem readDigits?_append {digits rest : List Char} (nonempty : digits ≠ [])
    (areDigits : ∀ digit ∈ digits, isDigit digit = true)
    (ends : ∀ head ∈ rest.head?, isDigit head = false) :
    readDigits? (digits ++ rest) = some (digits.map digitValue, rest) := by
  have taken : (digits ++ rest).takeWhile isDigit = digits := by
    rw [List.takeWhile_append_of_pos areDigits]
    cases rest with
    | nil => exact List.append_nil _
    | cons head rest =>
        rw [List.takeWhile_cons_of_neg (by simp [ends head rfl]), List.append_nil]
  have dropped : (digits ++ rest).dropWhile isDigit = rest := by
    rw [List.dropWhile_append_of_pos areDigits]
    cases rest with
    | nil => rfl
    | cons head rest => rw [List.dropWhile_cons_of_neg (by simp [ends head rfl])]
  rw [readDigits?, taken, dropped]
  simp [nonempty]

/-- The digits of a positive number do not start with a zero. -/
theorem toDigits_of_pos (value : Nat) (positive : 0 < value) :
    ∃ head tail, Nat.toDigits 10 value = head :: tail ∧ digitValue head ≠ 0 := by
  induction value using Nat.strongRecOn with
  | ind value induction =>
      by_cases small : value < 10
      · refine ⟨value.digitChar, [], Nat.toDigits_of_lt_base small, ?_⟩
        rw [digitValue, Nat.toNat_digitChar_of_lt_ten small]
        omega
      · rcases induction (value / 10) (by omega) (by omega) with ⟨head, tail, digits, nonzero⟩
        refine ⟨head, tail ++ [(value % 10).digitChar], ?_, nonzero⟩
        rw [Nat.toDigits_of_base_le (by decide) (Nat.le_of_not_lt small), digits,
          List.cons_append]

theorem natOfDigits_toDigits (value : Nat) :
    Number.natOfDigits ((Nat.toDigits 10 value).map digitValue) = value := by
  have read : Nat.ofDigitChars 10 (Nat.toDigits 10 value) 0 = value :=
    Nat.ofDigitChars_toDigits (by decide) (by decide)
  have step : ∀ (digits : List Char) (start : Nat),
      (digits.map digitValue).foldl (fun value digit => value * 10 + digit) start =
        Nat.ofDigitChars 10 digits start := by
    intro digits
    induction digits with
    | nil => exact fun _ => rfl
    | cons head tail induction =>
        intro start
        rw [List.map_cons, List.foldl_cons, induction, Nat.ofDigitChars_cons, Nat.mul_comm]
        rfl
  rw [Number.natOfDigits, step, read]

theorem readWhole?_toDigits (value : Nat) {rest : List Char} (ends : EndsNumber rest) :
    readWhole? (Nat.toDigits 10 value ++ rest) =
      some ((Nat.toDigits 10 value).map digitValue, rest) := by
  have nonempty : Nat.toDigits 10 value ≠ [] := Nat.toDigits_ne_nil
  have read := readDigits?_append nonempty (fun _ => isDigit_of_mem_toDigits)
    (fun head isHead => (ends head isHead).1)
  rw [readWhole?, read]
  rcases Nat.eq_zero_or_pos value with isZero | positive
  · rw [isZero]
    rfl
  · rcases toDigits_of_pos value positive with ⟨head, tail, digits, nonzero⟩
    rw [digits, List.map_cons]
    split
    · next same =>
        simp only [Option.some.injEq, Prod.mk.injEq, List.cons.injEq] at same
        exact absurd same.1.1 nonzero
    · rfl

theorem readNumber?_repr (value : Nat) {rest : List Char} (ends : EndsNumber rest) :
    readNumber? (Nat.toDigits 10 value ++ rest) =
      some (⟨false, (Nat.toDigits 10 value).map digitValue, [], false, [], true⟩, rest) := by
  have whole := readWhole?_toDigits value ends
  have fraction : readFraction? rest = some ([], rest) := by
    cases rest with
    | nil => rfl
    | cons head rest =>
        have notPoint := (ends head rfl).2.1
        rw [readFraction?]
        intro tail same
        exact notPoint (List.cons.inj same).1
  have power : readPower? rest = some ((false, []), rest) := by
    cases rest with
    | nil => rfl
    | cons head rest =>
        have notPower := (ends head rfl).2.2
        simp [readPower?, notPower]
  have unsigned : readNumber? (Nat.toDigits 10 value ++ rest) =
      readMagnitude? false (Nat.toDigits 10 value ++ rest) := by
    rcases exists_toDigits_eq_cons value with ⟨head, tail, digits, isFirst⟩
    rw [digits, List.cons_append, readNumber?]
    intro other same
    cases same
    cases isFirst
  rw [unsigned, readMagnitude?, whole]
  simp only [Option.bind_eq_bind, Option.bind_some, fraction, power]
  rfl

theorem ofLiteral_natural {value : Nat} (fits : value < UInt64.size) :
    Number.ofLiteral ⟨false, (Nat.toDigits 10 value).map digitValue, [], false, [], true⟩ =
      some (.natural value) := by
  simp [Number.ofLiteral, natOfDigits_toDigits, fits]

/-! ## Strings -/

theorem unitOfHex?_hexDigit : ∀ code < 32,
    unitOfHex? '0' '0' (hexDigit (code / 16)) (hexDigit (code % 16)) = some code ∧
      isHighSurrogate code = false ∧ isLowSurrogate code = false := by
  decide

theorem readPieces?_escape (taken : List Piece) (character : Char) (rest : List Char) :
    readPieces? taken (escape character ++ rest) =
      readPieces? (.character character :: taken) rest := by
  rw [escape]
  -- seven characters have an escape of one letter
  iterate 7
    split
    · next same =>
        rw [same]
        rfl
  split
  · next control =>
      rcases unitOfHex?_hexDigit character.toNat control with ⟨unit, notHigh, notLow⟩
      simp only [List.cons_append, List.nil_append]
      rw [readPieces?, unit]
      simp only [pieceOfUnit, notHigh, notLow, Bool.or_self, Bool.false_eq_true, ↓reduceIte,
        Char.ofNat_toNat]
  · next notEscape _ _ _ _ _ plain =>
      rw [List.cons_append, List.nil_append, readPieces?.eq_def]
      simp [notEscape, plain]

theorem readPieces?_flatMap (characters : List Char) (taken : List Piece) (rest : List Char) :
    readPieces? taken (characters.flatMap escape ++ '"' :: rest) =
      some (taken.reverse ++ characters.map Piece.character, rest) := by
  induction characters generalizing taken with
  | nil => simp [readPieces?]
  | cons head tail induction =>
      rw [List.flatMap_cons, List.append_assoc, readPieces?_escape, induction,
        List.reverse_cons, List.append_assoc]
      rfl

theorem textOfPieces?_characters (taken characters : List Char) :
    textOfPieces? taken (characters.map Piece.character) =
      some (String.ofList (taken.reverse ++ characters)) := by
  induction characters generalizing taken with
  | nil => simp [textOfPieces?]
  | cons head tail induction =>
      rw [List.map_cons, textOfPieces?, induction, List.reverse_cons, List.append_assoc]
      rfl

theorem readString?_printString (text : String) (rest : List Char) :
    readString? (text.toList.flatMap escape ++ '"' :: rest) = some (some text, rest) := by
  have pieces := textOfPieces?_characters [] text.toList
  rw [List.reverse_nil, List.nil_append, String.ofList_toList] at pieces
  rw [readString?, readPieces?_flatMap, List.reverse_nil, List.nil_append, Option.map_some]
  simp only [pieces]

end Document

/-! ## Layout -/

theorem skipSpaces_cons {head : Char} (solid : Document.isSpace head = false) (rest : List Char) :
    Document.skipSpaces (head :: rest) = head :: rest :=
  List.dropWhile_cons_of_neg (by simp [solid])

theorem toList_lineBreak (depth : Nat) :
    (lineBreak depth).toList = '\n' :: List.replicate (2 * depth) ' ' := by
  simp [lineBreak]

theorem skipSpaces_lineBreak (depth : Nat) (rest : List Char) :
    Document.skipSpaces ((lineBreak depth).toList ++ rest) = Document.skipSpaces rest := by
  rw [toList_lineBreak]
  apply List.dropWhile_append_of_pos
  intro character isMember
  rcases List.mem_cons.mp isMember with same | isBlank
  · rw [same]
    rfl
  · rw [List.eq_of_mem_replicate isBlank]
    rfl

/-- The characters of entries behind the first. -/
def followingEntries (depth : Nat) (entries : List String) : List Char :=
  entries.flatMap fun entry => ',' :: ((lineBreak depth).toList ++ entry.toList)

theorem toList_bracketed_cons (opening closing : String) (depth : Nat) (first : String)
    (others : List String) :
    (bracketed opening closing depth (first :: others)).toList =
      opening.toList ++ ((lineBreak (depth + 1)).toList ++ (first.toList ++
        (followingEntries (depth + 1) others ++
          ((lineBreak depth).toList ++ closing.toList)))) := by
  have joined : ∀ (first : String) (others : List String),
      ("," ++ lineBreak (depth + 1)).toList.intercalate ((first :: others).map String.toList) =
        first.toList ++ followingEntries (depth + 1) others := by
    intro first others
    induction others generalizing first with
    | nil => simp [followingEntries]
    | cons second others induction =>
        rw [List.map_cons, List.map_cons, List.intercalate_cons_cons, ← List.map_cons, induction]
        simp [followingEntries]
  rw [bracketed]
  · rw [String.toList_append, String.toList_append, String.toList_append, String.toList_append,
      String.toList_intercalate, joined]
    simp only [List.append_assoc]
  · exact List.cons_ne_nil _ _

/-! ## Values -/

mutual
/-- All numbers are natural and fit in 64 bits. -/
def Natural : Json → Prop
  | .number (.natural value) => value < UInt64.size
  | .number _ => False
  | .array items => NaturalItems items
  | .object members => NaturalMembers members
  | _ => True

def NaturalItems : List Json → Prop
  | [] => True
  | head :: tail => Natural head ∧ NaturalItems tail

def NaturalMembers : List (String × Json) → Prop
  | [] => True
  | (_, value) :: tail => Natural value ∧ NaturalMembers tail
end

theorem naturalMembers_iff {members : List (String × Json)} :
    NaturalMembers members ↔ ∀ member ∈ members, member.2.Natural := by
  induction members with
  | nil => simp [NaturalMembers]
  | cons head tail induction =>
      rcases head with ⟨name, value⟩
      rw [NaturalMembers, induction, List.forall_mem_cons]

theorem naturalItems_iff {items : List Json} :
    NaturalItems items ↔ ∀ item ∈ items, item.Natural := by
  induction items with
  | nil => simp [NaturalItems]
  | cons head tail induction => rw [NaturalItems, induction, List.forall_mem_cons]

mutual
theorem Natural.sorted : ∀ {json : Json}, json.Natural → json.sorted.Natural
  | .null, _ | .bool _, _ | .string _, _ => trivial
  | .number (.natural _), fits => fits
  | .array items, natural => NaturalItems.sorted natural
  | .object members, natural => by
      rw [Json.sorted, Natural, naturalMembers_iff]
      intro member isMember
      rcases mem_insertMembers isMember with impossible | isSorted
      · cases impossible
      · exact naturalMembers_iff.mp (NaturalMembers.sorted natural) member isSorted

theorem NaturalItems.sorted : ∀ {items : List Json}, NaturalItems items →
    NaturalItems (sortedItems items)
  | [], _ => trivial
  | _ :: _, natural => ⟨Natural.sorted natural.1, NaturalItems.sorted natural.2⟩

theorem NaturalMembers.sorted : ∀ {members : List (String × Json)}, NaturalMembers members →
    NaturalMembers (sortedMembers members)
  | [], _ => trivial
  | (_, _) :: _, natural => ⟨Natural.sorted natural.1, NaturalMembers.sorted natural.2⟩
end

mutual
/-- The fuel it takes to read the value back. -/
def steps : Json → Nat
  | .array items => itemsSteps items + 1
  | .object members => membersSteps members + 1
  | _ => 1

def itemsSteps : List Json → Nat
  | [] => 0
  | head :: tail => steps head + itemsSteps tail + 1

def membersSteps : List (String × Json) → Nat
  | [] => 0
  | (_, value) :: tail => steps value + membersSteps tail + 1
end

/-- The value is read back from its text at any depth, whatever comes behind. -/
def ReadsBack (json : Json) : Prop :=
  ∀ depth fuel rest, json.steps ≤ fuel → Document.EndsNumber rest →
    Document.readValue? fuel ((prettyAt depth json).toList ++ rest) = some (toDocument json, rest)

theorem endsNumber_following (depth : Nat) (others : List String) (closing : Nat)
    (rest : List Char) : Document.EndsNumber
      (followingEntries depth others ++ ((lineBreak closing).toList ++ rest)) := by
  cases others with
  | nil =>
      rw [toList_lineBreak]
      exact Document.endsNumber_cons (by decide)
  | cons second others => exact Document.endsNumber_cons (by decide)

theorem readValue?_lineBreak (fuel depth : Nat) (rest : List Char) :
    Document.readValue? fuel ((lineBreak depth).toList ++ rest) =
      Document.readValue? fuel rest := by
  cases fuel with
  | zero => rfl
  | succ fuel => rw [Document.readValue?, Document.readValue?, skipSpaces_lineBreak]

theorem readValue?_space (fuel : Nat) (rest : List Char) :
    Document.readValue? fuel (' ' :: rest) = Document.readValue? fuel rest := by
  have skipped : Document.skipSpaces (' ' :: rest) = Document.skipSpaces rest :=
    List.dropWhile_cons_of_pos rfl
  cases fuel with
  | zero => rfl
  | succ fuel => rw [Document.readValue?, Document.readValue?, skipped]

theorem readItems?_lineBreak (fuel depth : Nat) (taken : List Document) (rest : List Char) :
    Document.readItems? fuel taken ((lineBreak depth).toList ++ rest) =
      Document.readItems? fuel taken rest := by
  cases fuel with
  | zero => rfl
  | succ fuel => rw [Document.readItems?, Document.readItems?, readValue?_lineBreak]

theorem readMembers?_lineBreak (fuel depth : Nat) (taken : List (Option String × Document))
    (rest : List Char) :
    Document.readMembers? fuel taken ((lineBreak depth).toList ++ rest) =
      Document.readMembers? fuel taken rest := by
  cases fuel with
  | zero => rfl
  | succ fuel => rw [Document.readMembers?, Document.readMembers?, skipSpaces_lineBreak]

theorem readItems?_pretty (depth closing : Nat) (rest : List Char) :
    ∀ (items : List Json) (head : Json) (taken : List Document) (fuel : Nat),
      (∀ item ∈ head :: items, item.ReadsBack) → itemsSteps (head :: items) ≤ fuel →
      Document.readItems? fuel taken ((prettyAt depth head).toList ++
        (followingEntries depth (prettyItems depth items) ++
          ((lineBreak closing).toList ++ ']' :: rest))) =
        some (.array (taken.reverse ++ itemDocuments (head :: items)), rest) := by
  intro items
  induction items with
  | nil =>
      intro head taken fuel each enough
      rw [itemsSteps] at enough
      cases fuel with
      | zero => omega
      | succ fuel =>
          rw [Document.readItems?, each head List.mem_cons_self depth fuel _ (by omega)
            (endsNumber_following _ _ _ _)]
          simp only [prettyItems, followingEntries, List.flatMap_nil, List.nil_append,
            skipSpaces_lineBreak, skipSpaces_cons (by decide : Document.isSpace ']' = false)]
          simp [itemDocuments]
  | cons second items induction =>
      intro head taken fuel each enough
      rw [itemsSteps] at enough
      cases fuel with
      | zero => omega
      | succ fuel =>
          rw [Document.readItems?, each head List.mem_cons_self depth fuel _ (by omega)
            (endsNumber_following _ _ _ _)]
          have behind := induction second (toDocument head :: taken) fuel
            (fun item isItem => each item (List.mem_cons_of_mem _ isItem)) (by omega)
          rw [← readItems?_lineBreak fuel depth] at behind
          simp only [prettyItems, followingEntries, List.flatMap_cons, List.cons_append,
            List.append_assoc, skipSpaces_cons (by decide : Document.isSpace ',' = false)]
          simp only [followingEntries] at behind
          rw [behind]
          simp [itemDocuments]

theorem toList_printString (text : String) :
    (printString text).toList = '"' :: (text.toList.flatMap escape ++ ['"']) := by
  simp [printString]

theorem toList_printMember (name : String) (depth : Nat) (value : Json) (rest : List Char) :
    (printString name ++ ": " ++ prettyAt depth value).toList ++ rest =
      '"' :: (name.toList.flatMap escape ++
        '"' :: ':' :: ' ' :: ((prettyAt depth value).toList ++ rest)) := by
  simp [toList_printString]

section Member

variable {value : Json} {fuel : Nat} {rest behind : List Char} (reads : value.ReadsBack)
  (enough : value.steps ≤ fuel) (ends : Document.EndsNumber rest) (name : String) (depth : Nat)
  (taken : List (Option String × Document))

include reads enough ends

theorem readMembers?_next (comma : Document.skipSpaces rest = ',' :: behind) :
    Document.readMembers? (fuel + 1) taken
        ((printString name ++ ": " ++ prettyAt depth value).toList ++ rest) =
      Document.readMembers? fuel ((some name, toDocument value) :: taken) behind := by
  rw [toList_printMember, Document.readMembers?, skipSpaces_cons (by decide)]
  simp only [Document.readString?_printString,
    skipSpaces_cons (by decide : Document.isSpace ':' = false), readValue?_space,
    reads depth fuel rest enough ends, comma]

theorem readMembers?_last (closed : Document.skipSpaces rest = '\x7d' :: behind) :
    Document.readMembers? (fuel + 1) taken
        ((printString name ++ ": " ++ prettyAt depth value).toList ++ rest) =
      some (.object ((some name, toDocument value) :: taken).reverse, behind) := by
  rw [toList_printMember, Document.readMembers?, skipSpaces_cons (by decide)]
  simp only [Document.readString?_printString,
    skipSpaces_cons (by decide : Document.isSpace ':' = false), readValue?_space,
    reads depth fuel rest enough ends, closed]

end Member

theorem readMembers?_pretty (depth closing : Nat) (rest : List Char) :
    ∀ (members : List (String × Json)) (head : String × Json)
      (taken : List (Option String × Document)) (fuel : Nat),
      (∀ member ∈ head :: members, member.2.ReadsBack) → membersSteps (head :: members) ≤ fuel →
      Document.readMembers? fuel taken
        ((printString head.1 ++ ": " ++ prettyAt depth head.2).toList ++
        (followingEntries depth (prettyMembers depth members) ++
          ((lineBreak closing).toList ++ '\x7d' :: rest))) =
        some (.object (taken.reverse ++ memberDocuments (head :: members)), rest) := by
  intro members
  induction members with
  | nil =>
      intro head taken fuel each enough
      rcases head with ⟨name, value⟩
      have reads : value.ReadsBack := each (name, value) List.mem_cons_self
      rw [membersSteps] at enough
      cases fuel with
      | zero => omega
      | succ fuel =>
          have closed : Document.skipSpaces (followingEntries depth (prettyMembers depth []) ++
              ((lineBreak closing).toList ++ '\x7d' :: rest)) = '\x7d' :: rest := by
            simp only [prettyMembers, followingEntries, List.flatMap_nil, List.nil_append,
              skipSpaces_lineBreak, skipSpaces_cons (by decide : Document.isSpace '\x7d' = false)]
          rw [readMembers?_last reads (by omega) (endsNumber_following _ _ _ _) name depth taken
            closed]
          simp [memberDocuments]
  | cons second members induction =>
      intro head taken fuel each enough
      rcases head with ⟨name, value⟩
      have reads : value.ReadsBack := each (name, value) List.mem_cons_self
      rw [membersSteps] at enough
      cases fuel with
      | zero => omega
      | succ fuel =>
          have comma : Document.skipSpaces
              (followingEntries depth (prettyMembers depth (second :: members)) ++
                ((lineBreak closing).toList ++ '\x7d' :: rest)) =
              ',' :: ((lineBreak depth).toList ++
                ((printString second.1 ++ ": " ++ prettyAt depth second.2).toList ++
                  (followingEntries depth (prettyMembers depth members) ++
                    ((lineBreak closing).toList ++ '\x7d' :: rest)))) := by
            simp only [prettyMembers, followingEntries, List.flatMap_cons, List.cons_append,
              List.append_assoc, skipSpaces_cons (by decide : Document.isSpace ',' = false)]
          rw [readMembers?_next reads (by omega) (endsNumber_following _ _ _ _) name depth taken
              comma, readMembers?_lineBreak,
            induction second ((some name, toDocument value) :: taken) fuel
              (fun member isMember => each member (List.mem_cons_of_mem _ isMember)) (by omega)]
          simp [memberDocuments]

/-! ## Reading back -/

theorem readValue?_number {fuel value : Nat} {rest : List Char} (ends : Document.EndsNumber rest) :
    Document.readValue? (fuel + 1) (Nat.toDigits 10 value ++ rest) =
      some (.number (Number.ofLiteral
        ⟨false, (Nat.toDigits 10 value).map Document.digitValue, [], false, [], true⟩), rest) := by
  have read := Document.readNumber?_repr value ends
  rcases Document.exists_toDigits_eq_cons value with ⟨head, tail, digits, isFirst⟩
  have differs : ∀ {letter : Char} {other : List Char}, Document.isDigit letter = false →
      head :: (tail ++ rest) ≠ letter :: other := by
    intro letter other notDigit same
    rw [(List.cons.inj same).1, notDigit] at isFirst
    cases isFirst
  rw [digits, List.cons_append] at read ⊢
  rw [Document.readValue?, skipSpaces_cons (Document.isSpace_of_isDigit isFirst)]
  split
  · next same => exact absurd same (differs rfl)
  · next same => exact absurd same (differs rfl)
  · next same => exact absurd same (differs rfl)
  · next same => exact absurd same (differs rfl)
  · next same => exact absurd same (differs rfl)
  · next same => exact absurd same (differs rfl)
  · rw [read, Option.map_some]

theorem exists_bracketed_eq_append (opening closing : String) (depth : Nat)
    (entries : List String) :
    ∃ tail, (bracketed opening closing depth entries).toList = opening.toList ++ tail := by
  cases entries with
  | nil => exact ⟨closing.toList, String.toList_append⟩
  | cons first others => exact ⟨_, toList_bracketed_cons opening closing depth first others⟩

/-- The text of a value starts with neither a blank nor a closing bracket. -/
theorem exists_prettyAt_eq_cons (json : Json) (natural : json.Natural) (depth : Nat) :
    ∃ head tail, (prettyAt depth json).toList = head :: tail ∧
      Document.isSpace head = false ∧ head ≠ ']' := by
  cases json with
  | null => exact ⟨'n', ['u', 'l', 'l'], by simp [prettyAt], by decide⟩
  | bool value =>
      cases value with
      | true => exact ⟨'t', ['r', 'u', 'e'], by simp [prettyAt], by decide⟩
      | false => exact ⟨'f', ['a', 'l', 's', 'e'], by simp [prettyAt], by decide⟩
  | number value =>
      cases value with
      | natural value =>
          rcases Document.exists_toDigits_eq_cons value with ⟨head, tail, digits, isFirst⟩
          refine ⟨head, tail, ?_, Document.isSpace_of_isDigit isFirst, ?_⟩
          · rw [prettyAt, printNumber, Nat.toList_repr, digits]
          · intro same
            subst same
            cases isFirst
      | negative magnitude => exact natural.elim
      | double bits => exact natural.elim
  | string text => exact ⟨'"', _, toList_printString text, by decide⟩
  | array items =>
      rcases exists_bracketed_eq_append "[" "]" depth (prettyItems (depth + 1) items) with
        ⟨tail, text⟩
      exact ⟨'[', tail, by simp [prettyAt, text], by decide⟩
  | object members =>
      rcases exists_bracketed_eq_append "\x7b" "\x7d" depth (prettyMembers (depth + 1) members) with
        ⟨tail, text⟩
      exact ⟨'\x7b', tail, by simp [prettyAt, text], by decide⟩

theorem readsBack_of_succ {json : Json} (positive : 0 < json.steps)
    (reads : ∀ depth fuel rest, Document.EndsNumber rest →
      Document.readValue? (fuel + 1) ((prettyAt depth json).toList ++ rest) =
        some (toDocument json, rest)) : json.ReadsBack := by
  intro depth fuel rest enough ends
  cases fuel with
  | zero => omega
  | succ fuel => exact reads depth fuel rest ends

theorem readsBack_array {items : List Json} (natural : NaturalItems items)
    (each : ∀ item ∈ items, item.ReadsBack) : (Json.array items).ReadsBack := by
  intro depth fuel rest enough ends
  rw [steps] at enough
  cases fuel with
  | zero => omega
  | succ fuel =>
      cases items with
      | nil => simp [prettyAt, prettyItems, bracketed, Document.readValue?, Document.skipSpaces,
          Document.isSpace, toDocument, itemDocuments]
      | cons head items =>
          rcases exists_prettyAt_eq_cons head natural.1 (depth + 1) with
            ⟨first, text, isText, solid, notClosing⟩
          have read := readItems?_pretty (depth + 1) depth rest items head [] fuel each
            (Nat.le_of_succ_le_succ enough)
          rw [isText, List.cons_append] at read
          rw [prettyAt, prettyItems, toList_bracketed_cons, isText]
          simp only [List.append_assoc, List.cons_append]
          have opening : "[".toList = ['['] := by simp
          have closing : "]".toList = [']'] := by simp
          rw [opening, closing, List.singleton_append, Document.readValue?,
            skipSpaces_cons (by decide)]
          simp only [skipSpaces_lineBreak, skipSpaces_cons solid, List.singleton_append]
          split
          · next same => exact absurd (List.cons.inj same).1 notClosing
          · exact read

theorem readsBack_object {members : List (String × Json)}
    (each : ∀ member ∈ members, member.2.ReadsBack) : (Json.object members).ReadsBack := by
  intro depth fuel rest enough ends
  rw [steps] at enough
  cases fuel with
  | zero => omega
  | succ fuel =>
      cases members with
      | nil => simp [prettyAt, prettyMembers, bracketed, Document.readValue?, Document.skipSpaces,
          Document.isSpace, toDocument, memberDocuments]
      | cons head members =>
          have read := readMembers?_pretty (depth + 1) depth rest members head [] fuel each
            (Nat.le_of_succ_le_succ enough)
          have entry : (printString head.1 ++ ": " ++ prettyAt (depth + 1) head.2).toList =
              '"' :: (head.1.toList.flatMap escape ++ '"' :: ':' :: ' ' ::
                (prettyAt (depth + 1) head.2).toList) := by
            simp [toList_printString]
          have opening : "\x7b".toList = ['\x7b'] := by simp
          have closing : "\x7d".toList = ['\x7d'] := by simp
          rw [prettyAt, prettyMembers, toList_bracketed_cons]
          rw [entry, List.cons_append] at read ⊢
          rw [opening, closing, List.singleton_append, List.cons_append, Document.readValue?,
            skipSpaces_cons (by decide)]
          simp only [List.append_assoc, List.cons_append, skipSpaces_lineBreak,
            skipSpaces_cons (by decide : Document.isSpace '"' = false), List.nil_append]
          simp only [List.append_assoc, List.cons_append] at read
          exact read

mutual
/-- A value reads back. -/
theorem readsBack : ∀ json : Json, json.Natural → json.ReadsBack
  | .null, _ => readsBack_of_succ (Nat.le_refl 1) fun depth fuel rest _ => by
      simp [prettyAt, Document.readValue?, skipSpaces_cons, Document.isSpace, toDocument]
  | .bool true, _ => readsBack_of_succ (Nat.le_refl 1) fun depth fuel rest _ => by
      simp [prettyAt, Document.readValue?, skipSpaces_cons, Document.isSpace, toDocument]
  | .bool false, _ => readsBack_of_succ (Nat.le_refl 1) fun depth fuel rest _ => by
      simp [prettyAt, Document.readValue?, skipSpaces_cons, Document.isSpace, toDocument]
  | .number (.natural value), fits =>
      readsBack_of_succ (Nat.le_refl 1) fun depth fuel rest ends => by
        rw [prettyAt, printNumber, Nat.toList_repr, readValue?_number ends,
          Document.ofLiteral_natural fits, toDocument]
  | .string text, _ => readsBack_of_succ (Nat.le_refl 1) fun depth fuel rest _ => by
      rw [prettyAt, toList_printString, List.cons_append, List.append_assoc,
        Document.readValue?, skipSpaces_cons (by decide)]
      simp only [List.singleton_append, Document.readString?_printString, Option.map_some,
        toDocument]
  | .array items, natural => readsBack_array natural (readsBack_items items natural)
  | .object members, natural => readsBack_object (readsBack_members members natural)

theorem readsBack_items : ∀ items : List Json, NaturalItems items →
    ∀ item ∈ items, item.ReadsBack
  | [], _ => fun _ isItem => nomatch isItem
  | head :: tail, natural => List.forall_mem_cons.mpr
      ⟨readsBack head natural.1, readsBack_items tail natural.2⟩

theorem readsBack_members : ∀ members : List (String × Json), NaturalMembers members →
    ∀ member ∈ members, member.2.ReadsBack
  | [], _ => fun _ isMember => nomatch isMember
  | (_, value) :: tail, natural => List.forall_mem_cons.mpr
      ⟨readsBack value natural.1, readsBack_members tail natural.2⟩
end

/-! The text is long enough for the fuel it takes. -/

theorem length_followingEntries (depth : Nat) (entries : List String) :
    ((entries.map fun entry => entry.toList.length).sum) ≤
      (followingEntries depth entries).length := by
  induction entries with
  | nil => exact Nat.le_refl 0
  | cons head tail induction =>
      rw [followingEntries] at induction ⊢
      simp only [List.map_cons, List.sum_cons, List.flatMap_cons, List.length_append,
        List.length_cons]
      omega

theorem length_bracketed (opening closing : String) (depth : Nat) (entries : List String) :
    opening.toList.length + (entries.map fun entry => entry.toList.length).sum ≤
      (bracketed opening closing depth entries).toList.length := by
  cases entries with
  | nil => simp [bracketed]
  | cons first others =>
      have behind := length_followingEntries (depth + 1) others
      rw [toList_bracketed_cons, List.map_cons, List.sum_cons]
      simp only [List.length_append]
      omega

theorem length_prettyAt_pos (json : Json) (natural : json.Natural) (depth : Nat) :
    0 < (prettyAt depth json).toList.length := by
  rcases exists_prettyAt_eq_cons json natural depth with ⟨head, tail, text, _⟩
  rw [text]
  exact Nat.succ_pos _

mutual
theorem steps_lt : ∀ (json : Json) (depth : Nat), json.Natural →
    json.steps < 2 * (prettyAt depth json).toList.length
  | .array items, depth, natural => by
      have itemSteps := itemsSteps_le items (depth + 1) natural
      have length := length_bracketed "[" "]" depth (prettyItems (depth + 1) items)
      have opening : "[".toList.length = 1 := by simp
      rw [steps, prettyAt]
      omega
  | .object members, depth, natural => by
      have memberSteps := membersSteps_le members (depth + 1) natural
      have length := length_bracketed "\x7b" "\x7d" depth (prettyMembers (depth + 1) members)
      have opening : "\x7b".toList.length = 1 := by simp
      rw [steps, prettyAt]
      omega
  | .null, depth, natural | .bool _, depth, natural | .number _, depth, natural
  | .string _, depth, natural => by
      have positive := length_prettyAt_pos _ natural depth
      rw [steps.eq_def]
      dsimp only
      omega

theorem itemsSteps_le : ∀ (items : List Json) (depth : Nat), NaturalItems items →
    itemsSteps items ≤ 2 * ((prettyItems depth items).map fun entry => entry.toList.length).sum
  | [], _, _ => Nat.zero_le _
  | head :: tail, depth, natural => by
      have headSteps := steps_lt head depth natural.1
      have tailSteps := itemsSteps_le tail depth natural.2
      rw [itemsSteps, prettyItems, List.map_cons, List.sum_cons]
      omega

theorem membersSteps_le : ∀ (members : List (String × Json)) (depth : Nat),
    NaturalMembers members →
      membersSteps members ≤
        2 * ((prettyMembers depth members).map fun entry => entry.toList.length).sum
  | [], _, _ => Nat.zero_le _
  | (name, value) :: tail, depth, natural => by
      have valueSteps := steps_lt value depth natural.1
      have tailSteps := membersSteps_le tail depth natural.2
      rw [membersSteps, prettyMembers, List.map_cons, List.sum_cons, String.toList_append,
        List.length_append]
      omega
end

/-- Pretty text reads back as the document of the value. -/
theorem ofText?_pretty {json : Json} (natural : json.Natural) :
    Document.ofText? (pretty json) = some (toDocument json) := by
  have enough := steps_lt json 0 natural
  have read := readsBack json natural 0 (2 * (pretty json).toList.length + 2) []
    (by rw [pretty]; omega) (fun _ isHead => nomatch isHead)
  rw [List.append_nil, ← pretty] at read
  rw [Document.ofText?]
  simp only [read]
  rfl

end EventSheet.Json
