import EventSheet.Toml.Reader
import EventSheet.Proofs.Json.Text
import EventSheet.Proofs.Toml.Strings
namespace EventSheet.Toml

/-! # Reading printed documents

A document of sections is read as a table of tables, when every value is read back in front of a
line break and all names are bare and distinct. -/

/-! ## Numbers -/

theorem readDigits?_append (digits taken tail : List Char)
    (areDigits : ∀ digit ∈ digits, isDigit digit = true) (nonempty : taken ++ digits ≠ []) :
    readDigits? isDigit taken (digits ++ '\n' :: tail) =
      some (taken.reverse ++ digits, '\n' :: tail) := by
  induction digits generalizing taken with
  | nil =>
      have taken : taken.isEmpty = false := by simpa using nonempty
      simp [readDigits?, taken, isDigit]
  | cons head digits induction =>
      have isFirst := areDigits head List.mem_cons_self
      have notMark : head ≠ '_' := by
        rintro rfl
        cases isFirst
      have later := induction (head :: taken) (fun digit member => areDigits digit (.tail _ member))
        (by simp)
      rw [List.cons_append, readDigits?, if_pos isFirst, later, List.reverse_cons,
        List.append_assoc]
      · rfl
      · exact fun _ _ same => absurd same notMark

theorem readFixed?_cases {width least greatest : Nat} {characters rest : List Char} {value : Nat}
    (read : readFixed? width least greatest characters = some (value, rest)) :
    (∀ digit ∈ characters.take width, isDigit digit = true) ∧ rest = characters.drop width := by
  simp only [readFixed?] at read
  split at read
  · next fixed =>
      rw [Bool.and_eq_true, decide_eq_true_eq, List.all_eq_true] at fixed
      split at read
      · exact ⟨fixed.2, (Prod.mk.inj (Option.some.inj read)).2.symm⟩
      · cases read
  · cases read

/-- Inside a number and right behind it stands another digit or the end of the line. -/
theorem next_of_drop {digits tail rest : List Char} {width : Nat} {head : Char}
    (areDigits : ∀ digit ∈ digits, isDigit digit = true) (wide : width ≤ digits.length)
    (behind : (digits ++ '\n' :: tail).drop width = head :: rest) :
    isDigit head = true ∨ head = '\n' := by
  rw [List.drop_append_of_le_length wide] at behind
  cases remaining : digits.drop width with
  | nil =>
      rw [remaining] at behind
      exact .inr (List.cons.inj behind).1.symm
  | cons digit others =>
      have isMember : digit ∈ digits.drop width := by
        rw [remaining]
        exact List.mem_cons_self
      rw [remaining] at behind
      rw [← (List.cons.inj behind).1]
      exact .inl (areDigits digit (List.mem_of_mem_drop isMember))

theorem behind_readFixed? {width least greatest : Nat} {digits tail rest : List Char}
    {value : Nat} {head : Char} (areDigits : ∀ digit ∈ digits, isDigit digit = true)
    (read : readFixed? width least greatest (digits ++ '\n' :: tail) = some (value, head :: rest)) :
    isDigit head = true ∨ head = '\n' := by
  rcases readFixed?_cases read with ⟨fixed, behind⟩
  refine next_of_drop areDigits ?_ behind.symm
  by_contra narrow
  have isMember : '\n' ∈ (digits ++ '\n' :: tail).take width := by
    rw [List.take_append, List.mem_append]
    refine .inr ?_
    rw [show width - digits.length = (width - digits.length - 1) + 1 by omega]
    exact List.mem_cons_self
  cases fixed '\n' isMember

theorem not_startsDate {digits : List Char} (areDigits : ∀ digit ∈ digits, isDigit digit = true)
    (tail : List Char) : startsDate (digits ++ '\n' :: tail) = false := by
  rw [startsDate]
  split
  · next read =>
      rcases behind_readFixed? areDigits read with isDigit | isNewline
      · cases isDigit
      · cases isNewline
  · rfl

theorem not_startsTime {digits : List Char} (areDigits : ∀ digit ∈ digits, isDigit digit = true)
    (tail : List Char) : startsTime (digits ++ '\n' :: tail) = false := by
  rw [startsTime]
  split
  · next read =>
      rcases behind_readFixed? areDigits read with isDigit | isNewline
      · cases isDigit
      · cases isNewline
  · rfl

theorem ne_of_isDigit {head other : Char} (isFirst : isDigit head = true)
    (isOther : isDigit other = false) : head ≠ other := by
  rintro rfl
  rw [isFirst] at isOther
  cases isOther

theorem isDigit_of_mem_toDigits {value : Nat} {digit : Char}
    (isMember : digit ∈ Nat.toDigits 10 value) : isDigit digit = true :=
  Json.Document.isDigit_of_mem_toDigits isMember

theorem toDigits_append_ne {mark : Char} (notDigit : isDigit mark = false) (value : Nat)
    (rest tail : List Char) : Nat.toDigits 10 value ++ rest ≠ mark :: tail := by
  rcases Json.Document.exists_toDigits_eq_cons value with ⟨head, others, digits, isFirst⟩
  rw [digits, List.cons_append]
  exact fun same => ne_of_isDigit isFirst notDigit (List.cons.inj same).1

theorem natOfDigits_decimalValues (value : Nat) :
    Number.natOfDigits (decimalValues (Nat.toDigits 10 value)) = value :=
  Json.Document.natOfDigits_toDigits value

theorem readWhole?_toDigits (value : Nat) (tail : List Char) :
    readWhole? (Nat.toDigits 10 value ++ '\n' :: tail) =
      some (Nat.toDigits 10 value, '\n' :: tail) := by
  rcases Nat.eq_zero_or_pos value with isZero | positive
  · rw [isZero]
    rfl
  · rcases Json.Document.toDigits_of_pos value positive with ⟨head, others, digits, nonzero⟩
    have read := readDigits?_append (Nat.toDigits 10 value) [] tail
      (fun _ => isDigit_of_mem_toDigits) Nat.toDigits_ne_nil
    have notZero : head ≠ '0' := by
      rintro rfl
      exact nonzero rfl
    rw [digits, List.cons_append] at read ⊢
    rw [readWhole?, read]
    · rfl
    · exact fun _ same => notZero (List.cons.inj same).1

theorem readNumber?_repr {value : Nat} (fits : integerInRange value = true) (tail : List Char) :
    readNumber? (Nat.toDigits 10 value ++ '\n' :: tail) =
      some (.integer value, '\n' :: tail) := by
  have whole := readWhole?_toDigits value tail
  have unsigned : readSign (Nat.toDigits 10 value ++ '\n' :: tail) =
      (false, Nat.toDigits 10 value ++ '\n' :: tail) := by
    rw [readSign]
    · exact fun _ => toDigits_append_ne rfl value _ _
    · exact fun _ => toDigits_append_ne rfl value _ _
  have integral : readFloatTail? ('\n' :: tail) = none := rfl
  -- no base is marked, as what follows a digit is another one or the end of the line
  have second (zero mark : Char) (rest : List Char)
      (same : Nat.toDigits 10 value ++ '\n' :: tail = zero :: mark :: rest) :
      isDigit mark = true ∨ mark = '\n' := by
    have oneDigit : 1 ≤ (Nat.toDigits 10 value).length :=
      List.length_pos_iff.mpr Nat.toDigits_ne_nil
    exact next_of_drop (fun _ => isDigit_of_mem_toDigits) oneDigit (congrArg (List.drop 1) same)
  rw [readNumber?.eq_def]
  split
  · next same => exact absurd (second _ _ _ same) (by decide)
  · next same => exact absurd (second _ _ _ same) (by decide)
  · next same => exact absurd (second _ _ _ same) (by decide)
  · simp only [unsigned]
    split
    · next same => exact absurd same (toDigits_append_ne rfl value _ _)
    · next same => exact absurd same (toDigits_append_ne rfl value _ _)
    · simp only [whole, Option.bind_eq_bind, Option.bind_some, integral, natOfDigits_decimalValues,
        Bool.false_eq_true, if_false, fits, if_true]

theorem readPlainScalar?_repr {value : Nat} (fits : integerInRange value = true)
    (tail : List Char) :
    readPlainScalar? ((Nat.repr value).toList ++ '\n' :: tail) =
      some (.integer value, '\n' :: tail) := by
  have areDigits : ∀ digit ∈ Nat.toDigits 10 value, isDigit digit = true :=
    fun _ => isDigit_of_mem_toDigits
  rw [Nat.toList_repr, readPlainScalar?, not_startsDate areDigits, not_startsTime areDigits,
    Bool.or_self, if_neg Bool.false_ne_true, readNumber?_repr fits tail]
  · exact fun _ => toDigits_append_ne rfl value _ _
  · exact fun _ => toDigits_append_ne rfl value _ _

/-! ## Entries

An entry is a key with the text of its value and with the value. A section is a header with the
entries below it. -/

structure Entry where
  name : String
  text : String
  value : Value

structure Section where
  name : String
  entries : List Entry

/-- A name that needs no quotes. -/
def IsBare (name : String) : Prop :=
  name ≠ "" ∧ ∀ character ∈ name.toList, isBareKey character = true

-- the characters are tried one by one, since trying every character there is is an instance as well
instance (name : String) : Decidable (IsBare name) :=
  decidable_of_iff (name ≠ "" ∧ name.toList.all isBareKey = true)
    (and_congr_right fun _ => List.all_eq_true)

/-- The text of a value starts with it, and is read as the value at the end of a line. -/
def Entry.ReadsBack (entry : Entry) : Prop :=
  IsBare entry.name ∧ ∀ tail : List Char,
    skipSpaces (entry.text.toList ++ '\n' :: tail) = entry.text.toList ++ '\n' :: tail ∧
    ∀ fuel, readValue? 0 (fuel + 1) (entry.text.toList ++ '\n' :: tail) =
      some (entry.value, '\n' :: tail)

def Entry.print (entry : Entry) : String := setting entry.name entry.text

def Section.print (part : Section) : String :=
  tableSection part.name (part.entries.map Entry.print)

def Section.members (part : Section) : Members :=
  part.entries.map fun entry => (entry.name, .value entry.value)

def Section.item (part : Section) : String × Item :=
  (part.name, .table false false part.members)

theorem Entry.readsBack_string {name : String} (bare : IsBare name) (text : String) :
    Entry.ReadsBack ⟨name, printString text, .string text⟩ := by
  refine ⟨bare, fun tail => ?_⟩
  have read := readString?_printString text tail
  have quoted : ∃ mark others, (printString text).toList = mark :: others ∧
      (mark = '"' ∨ mark = '\'') := by
    rw [printString]
    split <;> simp only [String.toList_append]
    · exact ⟨_, _, rfl, .inl rfl⟩
    · exact ⟨_, _, rfl, .inr rfl⟩
    · exact ⟨_, _, rfl, .inl rfl⟩
    · exact ⟨_, _, rfl, .inr rfl⟩
  rcases quoted with ⟨mark, others, printed, isMark⟩
  rw [printed, List.cons_append] at read ⊢
  rcases isMark with rfl | rfl
  all_goals
    refine ⟨rfl, fun fuel => ?_⟩
    rw [readValue?, read]
    rfl

theorem Entry.readsBack_natural {name : String} (bare : IsBare name) {value : Nat}
    (fits : integerInRange value = true) :
    Entry.ReadsBack ⟨name, Nat.repr value, .integer value⟩ := by
  refine ⟨bare, fun tail => ?_⟩
  have read := readPlainScalar?_repr fits tail
  rcases Json.Document.exists_toDigits_eq_cons value with ⟨head, others, digits, isFirst⟩
  rw [Nat.toList_repr] at read ⊢
  rw [digits, List.cons_append] at read ⊢
  have solid : isSpace head = false := by
    simp only [isSpace, Bool.or_eq_false_iff, decide_eq_false_iff_not]
    exact ⟨ne_of_isDigit isFirst rfl, ne_of_isDigit isFirst rfl⟩
  refine ⟨List.dropWhile_cons_of_neg (by rw [solid]; decide), fun fuel => ?_⟩
  rw [readValue?, read]
  all_goals exact fun _ same => ne_of_isDigit isFirst rfl (List.cons.inj same).1

theorem Entry.readsBack_boolean {name : String} (bare : IsBare name) (value : Bool) :
    Entry.ReadsBack ⟨name, printBool value, .boolean value⟩ := by
  refine ⟨bare, fun tail => ?_⟩
  cases value
  all_goals
    simp [printBool, skipSpaces, isSpace, readValue?, readPlainScalar?]

theorem Section.toList_print (part : Section) :
    part.print.toList = '[' :: (part.name.toList ++ [']', '\n']) ++
      part.entries.flatMap fun entry => entry.print.toList := by
  simp [Section.print, tableSection, List.flatMap_map]

/-! ## Keys -/

theorem ne_of_isBareKey {head other : Char} (isBare : isBareKey head = true)
    (notBare : isBareKey other = false) : head ≠ other := by
  rintro rfl
  rw [isBare] at notBare
  cases notBare

section Keys

variable {name : String} (bare : IsBare name)
include bare

theorem IsBare.exists_cons :
    ∃ head others, name.toList = head :: others ∧ isBareKey head = true := by
  have nonempty : name.toList ≠ [] := fun empty => bare.1 (String.toList_eq_nil_iff.mp empty)
  rcases List.exists_cons_of_ne_nil nonempty with ⟨head, others, characters⟩
  refine ⟨head, others, characters, bare.2 head ?_⟩
  rw [characters]
  exact List.mem_cons_self

theorem IsBare.append_ne {mark : Char} (notBare : isBareKey mark = false)
    (rest tail : List Char) : name.toList ++ rest ≠ mark :: tail := by
  rcases bare.exists_cons with ⟨head, others, characters, isBare⟩
  rw [characters, List.cons_append]
  exact fun same => ne_of_isBareKey isBare notBare (List.cons.inj same).1

theorem readSimpleKey?_bare {next : Char} (ends : isBareKey next = false) (rest : List Char) :
    readSimpleKey? (name.toList ++ next :: rest) = some (name, next :: rest) := by
  have taken : (name.toList ++ next :: rest).takeWhile isBareKey = name.toList := by
    rw [List.takeWhile_append_of_pos bare.2, List.takeWhile_cons_of_neg (by rw [ends]; decide),
      List.append_nil]
  have dropped : (name.toList ++ next :: rest).dropWhile isBareKey = next :: rest := by
    rw [List.dropWhile_append_of_pos bare.2, List.dropWhile_cons_of_neg (by rw [ends]; decide)]
  have nonempty : name.toList.isEmpty = false := by
    rcases bare.exists_cons with ⟨head, others, characters, -⟩
    rw [characters]
    rfl
  rw [readSimpleKey?.eq_def]
  split
  · next same => exact absurd same (bare.append_ne rfl _ _)
  · next same => exact absurd same (bare.append_ne rfl _ _)
  · simp only [taken, dropped, nonempty, Bool.false_eq_true, if_false, String.ofList_toList]

theorem skipSpaces_bare (rest : List Char) :
    skipSpaces (name.toList ++ rest) = name.toList ++ rest := by
  rcases bare.exists_cons with ⟨head, others, characters, isBare⟩
  have solid : isSpace head = false := by
    simp only [isSpace, Bool.or_eq_false_iff, decide_eq_false_iff_not]
    exact ⟨ne_of_isBareKey isBare rfl, ne_of_isBareKey isBare rfl⟩
  rw [characters, List.cons_append, skipSpaces, List.dropWhile_cons_of_neg (by rw [solid]; decide)]

/-- A key of one part, up to what ends it. -/
theorem readKey?_bare {next mark : Char} {rest behind : List Char}
    (ends : isBareKey next = false) (skipped : skipSpaces (next :: rest) = mark :: behind)
    (notDot : mark ≠ '.') :
    readKey? (name.toList ++ next :: rest) = some ([name], mark :: behind) := by
  have parts (fuel : Nat) : readKeyParts? (fuel + 1) (name.toList ++ next :: rest) =
      some ([name], mark :: behind) := by
    rw [readKeyParts?, skipSpaces_bare bare, readSimpleKey?_bare bare ends]
    simp only [Option.bind_eq_bind, Option.bind_some, skipped]
    split
    · next same => exact absurd (List.cons.inj same).1 notDot
    · rfl
  rw [readKey?, parts]
  rfl

theorem endOfLine?_bare (rest : List Char) : endOfLine? (name.toList ++ rest) = none := by
  rw [endOfLine?, skipSpaces_bare bare]
  rcases bare.exists_cons with ⟨head, others, characters, isBare⟩
  rw [characters, List.cons_append, skipComment]
  · exact newline?_of_ne (ne_of_isBareKey isBare rfl) (ne_of_isBareKey isBare rfl) _
  · exact fun _ same => ne_of_isBareKey isBare rfl (List.cons.inj same).1

end Keys

/-! ## Tables -/

theorem lookup_members_of_fresh {part : Section} {name : String}
    (fresh : name ∉ part.entries.map Entry.name) : part.members.lookup name = none := by
  rw [List.lookup_eq_none_iff]
  intro member isMember
  rcases List.mem_map.mp isMember with ⟨entry, isEntry, rfl⟩
  rw [bne_iff_ne]
  rintro rfl
  exact fresh (List.mem_map_of_mem isEntry)

theorem lookup_items_of_fresh {parts : List Section} {name : String}
    (fresh : name ∉ parts.map Section.name) : (parts.map Section.item).lookup name = none := by
  rw [List.lookup_eq_none_iff]
  intro item isItem
  rcases List.mem_map.mp isItem with ⟨part, isPart, rfl⟩
  rw [bne_iff_ne]
  rintro rfl
  exact fresh (List.mem_map_of_mem isPart)

/-- In the middle of a section: the ones before it are complete, and some of its entries are
read. -/
def Assembly.within (done : List Section) (part : Section) : Assembly where
  root := done.map Section.item
  current := part.members
  path := [part.name]

namespace Assembly

variable {done : List Section} {part : Section}

theorem close?_within (fresh : part.name ∉ done.map Section.name) :
    (within done part).close? = some ((done ++ [part]).map Section.item) := by
  simp only [close?, within, List.getLast?_singleton, List.dropLast_singleton, descend?,
    Bool.false_eq_true, if_false, lookup_items_of_fresh fresh, List.map_append, List.map_cons,
    List.map_nil]
  rfl

theorem set?_within {entry : Entry} (fresh : entry.name ∉ part.entries.map Entry.name) :
    (within done part).set? [] entry.name entry.value =
      some (within done { part with entries := part.entries ++ [entry] }) := by
  have unset : part.members.lookup entry.name = none := lookup_members_of_fresh fresh
  have added : setKey? [] entry.name (.value entry.value) part.members =
      some (part.members ++ [(entry.name, .value entry.value)]) := by
    simp [setKey?, descend?, unset]
  have members : ({ part with entries := part.entries ++ [entry] } : Section).members =
      part.members ++ [(entry.name, .value entry.value)] := List.map_append
  show (setKey? [] entry.name (.value entry.value) part.members).bind _ = _
  rw [added]
  exact congrArg (fun current => some
    ({ root := done.map Section.item, current, path := [part.name] } : Assembly)) members.symm

/-- A header ends the section before it, if there is one. -/
theorem openTable?_fresh {assembly : Assembly} {name : String}
    (closes : assembly.close? = some (done.map Section.item))
    (fresh : name ∉ done.map Section.name) :
    assembly.openTable? [name] = some (within done ⟨name, []⟩) := by
  have missing := lookup_items_of_fresh fresh
  have others : (done.map Section.item).filter (fun member => member.1 ≠ name) =
      done.map Section.item := by
    rw [List.filter_eq_self]
    intro item isItem
    rw [List.lookup_eq_none_iff] at missing
    exact decide_eq_true (bne_iff_ne.mp (missing item isItem)).symm
  have found : found? name (lookAt (done.map Section.item) []) = some [] := by
    rw [lookAt, found?, missing]
  have root : descend? false
      (fun _ members => some (members.filter fun member => member.1 ≠ name)) [] false
      (done.map Section.item) = some (done.map Section.item) := by
    rw [descend?, others]
  simp only [openTable?, closes, Option.bind_eq_bind, Option.bind_some, List.getLast?_singleton,
    List.dropLast_singleton, found, root]
  rfl

end Assembly

theorem memberValues_members (part : Section) :
    memberValues part.members = part.entries.map fun entry => (entry.name, entry.value) := by
  rcases part with ⟨name, entries⟩
  induction entries with
  | nil => rfl
  | cons entry others induction => exact congrArg ((entry.name, entry.value) :: ·) induction

theorem memberValues_items (parts : List Section) :
    memberValues (parts.map Section.item) = parts.map fun part =>
      (part.name, .table (part.entries.map fun entry => (entry.name, entry.value))) := by
  induction parts with
  | nil => rfl
  | cons part others induction =>
      rw [List.map_cons, List.map_cons, ← memberValues_members, ← induction]
      rfl

/-! ## Lines -/

theorem readLines?_header {before after : Assembly} {characters rest : List Char}
    (read : readHeader? before characters = some (after, rest)) (fuel : Nat) :
    readLines? (fuel + 1) before ('[' :: characters) = readLines? fuel after rest := by
  have solid : skipSpaces ('[' :: characters) = '[' :: characters := rfl
  simp only [readLines?, solid, read]

/-- A line that begins with a bare key is a setting. -/
theorem readLines?_setting {before after : Assembly} {name : String} {behind rest : List Char}
    (bare : IsBare name) (read : readSetting? before (name.toList ++ behind) = some (after, rest))
    (fuel : Nat) :
    readLines? (fuel + 1) before (name.toList ++ behind) = readLines? fuel after rest := by
  rcases bare.exists_cons with ⟨head, others, characters, -⟩
  rw [readLines?]
  simp only [skipSpaces_bare bare]
  split
  · next same =>
      rw [characters, List.cons_append] at same
      cases same
  · next same => exact absurd same (bare.append_ne rfl _ _)
  · simp only [endOfLine?_bare bare, read]

theorem readSetting?_entry {before after : Assembly} {entry : Entry}
    (readsBack : entry.ReadsBack) (set : before.set? [] entry.name entry.value = some after)
    (tail : List Char) :
    readSetting? before
      (entry.name.toList ++ ' ' :: '=' :: ' ' :: (entry.text.toList ++ '\n' :: tail)) =
      some (after, tail) := by
  rcases readsBack with ⟨bare, reads⟩
  rcases reads tail with ⟨solid, read⟩
  have key : readKey?
      (entry.name.toList ++ ' ' :: '=' :: ' ' :: (entry.text.toList ++ '\n' :: tail)) =
      some ([entry.name], '=' :: ' ' :: (entry.text.toList ++ '\n' :: tail)) :=
    readKey?_bare bare rfl rfl (by decide)
  have value : skipSpaces (' ' :: (entry.text.toList ++ '\n' :: tail)) =
      entry.text.toList ++ '\n' :: tail := solid
  simp only [readSetting?, key, Option.bind_eq_bind, Option.bind_some, value, read, splitKey?,
    List.getLast?_singleton, Option.map_some, List.dropLast_singleton, set]
  rfl

/-- From the first assembly the reader gets to the second through the text, whatever follows it. -/
def Leads (before : Assembly) (text : List Char) (after : Assembly) : Prop :=
  ∃ steps ≤ text.length, ∀ (fuel : Nat) (tail : List Char),
    readLines? (fuel + steps) before (text ++ tail) = readLines? fuel after tail

namespace Leads

variable {before between after : Assembly}

theorem refl (assembly : Assembly) : Leads assembly [] assembly :=
  ⟨0, Nat.le_refl 0, fun _ _ => rfl⟩

theorem trans {text more : List Char} (first : Leads before text between)
    (second : Leads between more after) : Leads before (text ++ more) after := by
  rcases first with ⟨steps, few, leads⟩
  rcases second with ⟨others, fewOthers, goesOn⟩
  refine ⟨others + steps, ?_, fun fuel tail => ?_⟩
  · rw [List.length_append]
    omega
  · rw [← Nat.add_assoc, List.append_assoc, leads, goesOn]

theorem lineBreak (assembly : Assembly) : Leads assembly ['\n'] assembly :=
  ⟨1, Nat.le_refl 1, fun _ _ => rfl⟩

theorem header {name : String} (bare : IsBare name)
    (opened : before.openTable? [name] = some after) :
    Leads before ('[' :: (name.toList ++ [']', '\n'])) after := by
  refine ⟨1, by simp, fun fuel tail => ?_⟩
  have key : readKey? (name.toList ++ ']' :: '\n' :: tail) = some ([name], ']' :: '\n' :: tail) :=
    readKey?_bare bare rfl rfl (by decide)
  have read : readHeader? before (name.toList ++ ']' :: '\n' :: tail) = some (after, tail) := by
    rw [readHeader?.eq_def]
    split
    · next same => exact absurd same (bare.append_ne rfl _ _)
    · simp only [key, Option.bind_eq_bind, Option.bind_some]
      show Option.bind (before.openTable? [name]) _ = _
      rw [opened]
      rfl
  have line : '[' :: (name.toList ++ [']', '\n']) ++ tail =
      '[' :: (name.toList ++ ']' :: '\n' :: tail) := by
    rw [List.cons_append, List.append_assoc]
    rfl
  rw [line, readLines?_header read]

theorem entry {entry : Entry} (readsBack : entry.ReadsBack)
    (set : before.set? [] entry.name entry.value = some after) :
    Leads before entry.print.toList after := by
  refine ⟨1, ?_, fun fuel tail => ?_⟩
  · simp only [Entry.print, setting, String.toList_append, List.length_append]
    exact Nat.le_add_left 1 _
  have line : entry.print.toList ++ tail =
      entry.name.toList ++ ' ' :: '=' :: ' ' :: (entry.text.toList ++ '\n' :: tail) := by
    simp [Entry.print, setting]
  rw [line, readLines?_setting readsBack.1 (readSetting?_entry readsBack set tail)]

end Leads

theorem leads_entries (done : List Section) (part : Section) (entries : List Entry)
    (readBack : ∀ entry ∈ entries, entry.ReadsBack)
    (distinct : ((part.entries ++ entries).map Entry.name).Nodup) :
    Leads (.within done part) (entries.flatMap fun entry => entry.print.toList)
      (.within done { part with entries := part.entries ++ entries }) := by
  induction entries generalizing part with
  | nil =>
      rw [List.append_nil]
      exact .refl _
  | cons entry others induction =>
      have fresh : entry.name ∉ part.entries.map Entry.name := by
        rw [List.map_append, List.map_cons, List.nodup_append] at distinct
        exact fun member => distinct.2.2 _ member _ List.mem_cons_self rfl
      have same : part.entries ++ entry :: others = (part.entries ++ [entry]) ++ others := by
        rw [List.append_assoc]
        rfl
      rw [same] at distinct ⊢
      rw [List.flatMap_cons]
      exact (Leads.entry (readBack entry List.mem_cons_self) (Assembly.set?_within fresh)).trans
        (induction { part with entries := part.entries ++ [entry] }
          (fun other member => readBack other (.tail _ member)) distinct)

/-- A section whose entries are read back, each under a name of its own. -/
structure Section.ReadsBack (part : Section) : Prop where
  bare : IsBare part.name
  entries : ∀ entry ∈ part.entries, entry.ReadsBack
  distinct : (part.entries.map Entry.name).Nodup

theorem leads_section {done : List Section} {part : Section} {before : Assembly}
    (readsBack : part.ReadsBack) (closes : before.close? = some (done.map Section.item))
    (fresh : part.name ∉ done.map Section.name) :
    Leads before part.print.toList (.within done part) := by
  rw [part.toList_print]
  exact (Leads.header readsBack.bare (Assembly.openTable?_fresh closes fresh)).trans
    (leads_entries done ⟨part.name, []⟩ part.entries readsBack.entries readsBack.distinct)

/-! ## Documents -/

/-- The sections, with an empty line between any two of them. -/
def printDocument (parts : List Section) : String :=
  "\n".intercalate (parts.map Section.print)

theorem toList_printDocument (part : Section) (others : List Section) :
    (printDocument (part :: others)).toList =
      part.print.toList ++ others.flatMap fun other => '\n' :: other.print.toList := by
  induction others generalizing part with
  | nil =>
      have single : printDocument [part] = part.print := String.intercalate_singleton
      rw [single, List.flatMap_nil, List.append_nil]
  | cons next others induction =>
      have rest := induction next
      simp only [printDocument, String.toList_intercalate, List.map_cons] at rest ⊢
      rw [List.intercalate_cons_cons, rest, List.flatMap_cons, List.append_assoc]
      rfl

theorem name_not_mem_done {done others : List Section} {part : Section}
    (distinct : ((done ++ part :: others).map Section.name).Nodup) :
    part.name ∉ done.map Section.name := by
  rw [List.map_append, List.map_cons, List.nodup_append] at distinct
  exact fun member => distinct.2.2 _ member _ List.mem_cons_self rfl

theorem leads_others {others done : List Section} {before : Assembly}
    (closes : before.close? = some (done.map Section.item))
    (readBack : ∀ part ∈ others, part.ReadsBack)
    (distinct : ((done ++ others).map Section.name).Nodup) :
    ∃ after : Assembly,
      Leads before (others.flatMap fun other => '\n' :: other.print.toList) after ∧
      after.close? = some ((done ++ others).map Section.item) := by
  induction others generalizing done before with
  | nil =>
      rw [List.append_nil]
      exact ⟨before, .refl before, closes⟩
  | cons part others induction =>
      have fresh := name_not_mem_done distinct
      have same : done ++ part :: others = (done ++ [part]) ++ others := by
        rw [List.append_assoc]
        rfl
      have read := leads_section (readBack part List.mem_cons_self) closes fresh
      rw [same] at distinct ⊢
      rcases induction (Assembly.close?_within fresh)
        (fun other member => readBack other (.tail _ member)) distinct with ⟨after, goesOn, closes⟩
      exact ⟨after, ((Leads.lineBreak before).trans read).trans goesOn, closes⟩

theorem leads_document {parts : List Section} (readBack : ∀ part ∈ parts, part.ReadsBack)
    (distinct : (parts.map Section.name).Nodup) :
    ∃ after : Assembly, Leads {} (printDocument parts).toList after ∧
      after.close? = some (parts.map Section.item) := by
  cases parts with
  | nil => exact ⟨{}, .refl {}, rfl⟩
  | cons part others =>
      have read : Leads {} part.print.toList (.within [] part) :=
        leads_section (readBack part List.mem_cons_self) rfl List.not_mem_nil
      have complete : (Assembly.within [] part).close? = some ([part].map Section.item) :=
        Assembly.close?_within List.not_mem_nil
      rcases leads_others complete (fun other member => readBack other (.tail _ member)) distinct
        with ⟨after, goesOn, closes⟩
      rw [toList_printDocument]
      exact ⟨after, read.trans goesOn, closes⟩

theorem head?_printDocument (parts : List Section) :
    ∀ head ∈ (printDocument parts).toList.head?, head = '[' := by
  intro head isHead
  cases parts with
  | nil => cases isHead
  | cons part others =>
      rw [toList_printDocument, part.toList_print] at isHead
      cases isHead
      rfl

/-- A document is read as the tables of its sections. -/
theorem ofText?_printDocument {parts : List Section} (readBack : ∀ part ∈ parts, part.ReadsBack)
    (distinct : (parts.map Section.name).Nodup) :
    ofText? (printDocument parts) = some (parts.map fun part =>
      (part.name, .table (part.entries.map fun entry => (entry.name, entry.value)))) := by
  rcases leads_document readBack distinct with
    ⟨after, ⟨steps, few, leads⟩, closes⟩
  have whole := leads ((printDocument parts).toList.length + 1 - steps) []
  have enough : (printDocument parts).toList.length + 1 - steps + steps =
      (printDocument parts).toList.length + 1 := by omega
  have positive : (printDocument parts).toList.length + 1 - steps =
      (printDocument parts).toList.length - steps + 1 := by omega
  have unmarked : (printDocument parts).toList.head? ≠ some byteOrderMark := by
    intro marked
    have isBracket := head?_printDocument parts _ marked
    cases isBracket
  have ended : readLines? ((printDocument parts).toList.length - steps + 1) after [] = some after :=
    rfl
  rw [enough, List.append_nil, positive, ended] at whole
  rw [ofText?, if_neg unmarked]
  simp only [whole, Option.bind_eq_bind, Option.bind_some, closes]
  exact congrArg some (memberValues_items parts)

end EventSheet.Toml
