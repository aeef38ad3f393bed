import EventSheet.Toml.Scalar
import EventSheet.Toml.Table
namespace EventSheet.Toml

/-! Reading TOML documents. -/

/-- Arrays and inline tables that may be nested in one another, and parts of a
dotted key, stay below this. -/
def nestingLimit : Nat := 80

/-! ## Blanks and comments -/

/-- Skip the comment at the front, if there is one. -/
def skipComment (characters : List Char) : List Char :=
  match characters with
  | '#' :: rest => rest.dropWhile isPlain
  | rest => rest

/-- What ends a line: blanks, a comment, and a line break or the end of the
text. -/
def endOfLine? (characters : List Char) : Option (List Char) :=
  match skipComment (skipSpaces characters) with
  | [] => some []
  | rest => newline? rest

/-- Blanks, comments and line breaks between the items of an array. A comment
needs a line break behind it. -/
def skipBetween? : (fuel : Nat) → List Char → Option (List Char)
  | 0, _ => none
  | fuel + 1, characters =>
      let rest := skipSpaces characters
      match rest with
      | '#' :: _ =>
          match newline? (skipComment rest) with
          | some rest => skipBetween? fuel rest
          | none => none
      | _ =>
          match newline? rest with
          | some rest => skipBetween? fuel rest
          | none => some rest

/-! ## Keys -/

def isBareKey (character : Char) : Bool :=
  ('A' ≤ character && character ≤ 'Z') || ('a' ≤ character && character ≤ 'z') ||
    isDigit character || character = '_' || character = '-'

def readSimpleKey? (characters : List Char) : Option (String × List Char) :=
  match characters with
  | '"' :: rest => readBasic? [] (characters.length + 1) rest
  | '\'' :: rest => readLiteral? [] rest
  | _ =>
      let name := characters.takeWhile isBareKey
      if name.isEmpty then none
      else some (String.ofList name, characters.dropWhile isBareKey)

/-- The parts of a dotted key with blanks around them. -/
def readKeyParts? : (fuel : Nat) → List Char → Option (List String × List Char)
  | 0, _ => none
  | fuel + 1, characters => do
      let (part, rest) ← readSimpleKey? (skipSpaces characters)
      match skipSpaces rest with
      | '.' :: rest =>
          let (parts, rest) ← readKeyParts? fuel rest
          return (part :: parts, rest)
      | rest => return ([part], rest)

def readKey? (characters : List Char) : Option (List String × List Char) := do
  let (parts, rest) ← readKeyParts? (characters.length + 1) characters
  if parts.length < nestingLimit then return (parts, rest) else none

/-- The path in front of the last part of a key, and that part. -/
def splitKey? (parts : List String) : Option (List String × String) :=
  parts.getLast?.map fun name => (parts.dropLast, name)

/-! ## Values -/

mutual
def readValue? (nesting : Nat) : (fuel : Nat) → List Char → Option (Value × List Char)
  | 0, _ => none
  | fuel + 1, characters =>
      match characters with
      | '[' :: rest =>
          if nesting + 1 < nestingLimit then readItems? (nesting + 1) [] fuel rest else none
      | '{' :: rest =>
          if nesting + 1 < nestingLimit then
            match skipSpaces rest with
            | '}' :: rest => some (.table [], rest)
            | rest => readMembers? (nesting + 1) [] fuel rest
          else none
      | '"' :: _ => (readString? characters).map fun (text, rest) => (.string text, rest)
      | '\'' :: _ => (readString? characters).map fun (text, rest) => (.string text, rest)
      | _ => readPlainScalar? characters

/-- The items of an array up to its bracket; a comma may follow the last. -/
def readItems? (nesting : Nat) (taken : List Value) :
    (fuel : Nat) → List Char → Option (Value × List Char)
  | 0, _ => none
  | fuel + 1, characters =>
      match skipBetween? (characters.length + 1) characters with
      | none => none
      | some (']' :: rest) => some (.array taken.reverse, rest)
      | some rest =>
          match readValue? nesting fuel rest with
          | none => none
          | some (item, rest) =>
              match skipBetween? (rest.length + 1) rest with
              | some (',' :: rest) => readItems? nesting (item :: taken) fuel rest
              | some (']' :: rest) => some (.array (item :: taken).reverse, rest)
              | _ => none

/-- The members of an inline table up to its brace; it stays on one line and has
no comma behind its last member. -/
def readMembers? (nesting : Nat) (members : Members) :
    (fuel : Nat) → List Char → Option (Value × List Char)
  | 0, _ => none
  | fuel + 1, characters =>
      match readKey? characters with
      | some (parts, '=' :: rest) =>
          match splitKey? parts, readValue? nesting fuel (skipSpaces rest) with
          | some (path, name), some (value, rest) =>
              match setKey? path name (.value value) members with
              | none => none
              | some members =>
                  match skipSpaces rest with
                  | ',' :: rest => readMembers? nesting members fuel rest
                  | '}' :: rest => some (.table (memberValues members), rest)
                  | _ => none
          | _, _ => none
      | _ => none
end

/-! ## Documents -/

/-- A line that sets a key. -/
def readSetting? (assembly : Assembly) (characters : List Char) :
    Option (Assembly × List Char) := do
  match ← readKey? characters with
  | (parts, '=' :: rest) =>
      let (path, name) ← splitKey? parts
      let rest := skipSpaces rest
      let (value, rest) ← readValue? 0 (2 * rest.length + 2) rest
      let assembly ← assembly.set? path name value
      let rest ← endOfLine? rest
      return (assembly, rest)
  | _ => none

/-- A header, behind its first bracket. -/
def readHeader? (assembly : Assembly) (characters : List Char) :
    Option (Assembly × List Char) := do
  match characters with
  | '[' :: rest =>
      match ← readKey? rest with
      | (path, ']' :: ']' :: rest) =>
          let rest ← endOfLine? rest
          let assembly ← assembly.openRepeated? path
          return (assembly, rest)
      | _ => none
  | rest =>
      match ← readKey? rest with
      | (path, ']' :: rest) =>
          let rest ← endOfLine? rest
          let assembly ← assembly.openTable? path
          return (assembly, rest)
      | _ => none

/-- Read line by line. -/
def readLines? : (fuel : Nat) → Assembly → List Char → Option Assembly
  | 0, _, _ => none
  | fuel + 1, assembly, characters =>
      match skipSpaces characters with
      | [] => some assembly
      | '[' :: rest =>
          match readHeader? assembly rest with
          | some (assembly, rest) => readLines? fuel assembly rest
          | none => none
      | rest =>
          match endOfLine? rest with
          | some rest => readLines? fuel assembly rest
          | none =>
              match readSetting? assembly rest with
              | some (assembly, rest) => readLines? fuel assembly rest
              | none => none

def byteOrderMark : Char := Char.ofNat 0xFEFF

/-- The members of the table a document consists of. A byte order mark in front
is skipped. -/
def ofText? (text : String) : Option (List (String × Value)) := do
  let characters := text.toList
  let characters := if characters.head? = some byteOrderMark then characters.drop 1 else characters
  let assembly ← readLines? (characters.length + 1) {} characters
  let root ← assembly.close?
  return memberValues root

end EventSheet.Toml
