import EventSheet.Json.Document
namespace EventSheet.Json.Document

/-! Reading JSON text. The grammar is the strict one: no comments, no trailing
commas, no raw control characters in strings, and nothing but blanks around the
one value. -/

def isSpace (character : Char) : Bool :=
  character = ' ' || character = '\t' || character = '\n' || character = '\r'

def skipSpaces (characters : List Char) : List Char :=
  characters.dropWhile isSpace

/-! ## Numbers -/

def isDigit (character : Char) : Bool := '0' ≤ character && character ≤ '9'

def digitValue (character : Char) : Nat := character.toNat - 48

/-- The digits in front of a text, at least one. -/
def readDigits? (characters : List Char) : Option (List Nat × List Char) :=
  let digits := characters.takeWhile isDigit
  if digits.isEmpty then none
  else some (digits.map digitValue, characters.dropWhile isDigit)

/-- Digits without a needless zero in front. -/
def readWhole? (characters : List Char) : Option (List Nat × List Char) :=
  match readDigits? characters with
  | some (0 :: _ :: _, _) => none
  | other => other

def readFraction? : List Char → Option (List Nat × List Char)
  | '.' :: rest => readDigits? rest
  | rest => some ([], rest)

/-- The sign and the digits of a power of ten. -/
def readPower? : List Char → Option ((Bool × List Nat) × List Char)
  | head :: rest =>
      if head = 'e' || head = 'E' then
        match rest with
        | '+' :: rest => (readDigits? rest).map fun (digits, rest) => ((false, digits), rest)
        | '-' :: rest => (readDigits? rest).map fun (digits, rest) => ((true, digits), rest)
        | rest => (readDigits? rest).map fun (digits, rest) => ((false, digits), rest)
      else some ((false, []), head :: rest)
  | [] => some ((false, []), [])

def readMagnitude? (negative : Bool) (characters : List Char) :
    Option (Number.Literal × List Char) := do
  let (whole, rest) ← readWhole? characters
  let (fraction, rest) ← readFraction? rest
  let ((negativePower, power), rest) ← readPower? rest
  return (⟨negative, whole, fraction, negativePower, power,
    fraction.isEmpty && power.isEmpty⟩, rest)

def readNumber? : List Char → Option (Number.Literal × List Char)
  | '-' :: rest => readMagnitude? true rest
  | rest => readMagnitude? false rest

/-! ## Strings -/

/-- A character of a string, or a half of a surrogate pair written as an
escape. -/
inductive Piece where
  | character (value : Char)
  | surrogate (unit : Nat)

def hexValue? (character : Char) : Option Nat :=
  if '0' ≤ character && character ≤ '9' then some (character.toNat - 48)
  else if 'a' ≤ character && character ≤ 'f' then some (character.toNat - 87)
  else if 'A' ≤ character && character ≤ 'F' then some (character.toNat - 55)
  else none

def unitOfHex? (first second third fourth : Char) : Option Nat := do
  let first ← hexValue? first
  let second ← hexValue? second
  let third ← hexValue? third
  let fourth ← hexValue? fourth
  return ((first * 16 + second) * 16 + third) * 16 + fourth

def isHighSurrogate (unit : Nat) : Bool := 0xD800 ≤ unit && unit ≤ 0xDBFF
def isLowSurrogate (unit : Nat) : Bool := 0xDC00 ≤ unit && unit ≤ 0xDFFF

def pieceOfUnit (unit : Nat) : Piece :=
  if isHighSurrogate unit || isLowSurrogate unit then .surrogate unit
  else .character (Char.ofNat unit)

def escaped? : Char → Option Char
  | '"' => some '"'
  | '\\' => some '\\'
  | '/' => some '/'
  | 'b' => some '\x08'
  | 'f' => some '\x0c'
  | 'n' => some '\n'
  | 'r' => some '\r'
  | 't' => some '\t'
  | _ => none

/-- The pieces up to the closing quote, `taken` being those already read, the
last one first. -/
def readPieces? (taken : List Piece) : List Char → Option (List Piece × List Char)
  | [] => none
  | '"' :: rest => some (taken.reverse, rest)
  | '\\' :: 'u' :: first :: second :: third :: fourth :: rest =>
      match unitOfHex? first second third fourth with
      | some unit => readPieces? (pieceOfUnit unit :: taken) rest
      | none => none
  | '\\' :: head :: rest =>
      match escaped? head with
      | some character => readPieces? (.character character :: taken) rest
      | none => none
  | head :: rest =>
      if head.toNat < 32 || head = '\\' then none
      else readPieces? (.character head :: taken) rest

/-- Join the pieces; both halves of a surrogate pair make one character, and a
half alone makes none. -/
def textOfPieces? (taken : List Char) : List Piece → Option String
  | [] => some (String.ofList taken.reverse)
  | .character value :: rest => textOfPieces? (value :: taken) rest
  | .surrogate high :: .surrogate low :: rest =>
      if isHighSurrogate high && isLowSurrogate low then
        let code := 0x10000 + (high - 0xD800) * 0x400 + (low - 0xDC00)
        textOfPieces? (Char.ofNat code :: taken) rest
      else none
  | .surrogate _ :: _ => none

/-- A string after its opening quote. -/
def readString? (characters : List Char) : Option (Option String × List Char) :=
  (readPieces? [] characters).map fun (pieces, rest) => (textOfPieces? [] pieces, rest)

/-! ## Values

The fuel bounds the nesting and the length of what is read; twice the length of
the text is enough. -/

mutual
def readValue? : Nat → List Char → Option (Document × List Char)
  | 0, _ => none
  | fuel + 1, characters =>
      match skipSpaces characters with
      | 'n' :: 'u' :: 'l' :: 'l' :: rest => some (.null, rest)
      | 't' :: 'r' :: 'u' :: 'e' :: rest => some (.bool true, rest)
      | 'f' :: 'a' :: 'l' :: 's' :: 'e' :: rest => some (.bool false, rest)
      | '"' :: rest => (readString? rest).map fun (text, rest) => (.string text, rest)
      | '[' :: rest =>
          match skipSpaces rest with
          | ']' :: rest => some (.array [], rest)
          | rest => readItems? fuel [] rest
      | '{' :: rest =>
          match skipSpaces rest with
          | '}' :: rest => some (.object [], rest)
          | rest => readMembers? fuel [] rest
      | rest =>
          (readNumber? rest).map fun (literal, rest) =>
            (.number (Number.ofLiteral literal), rest)

def readItems? : Nat → List Document → List Char → Option (Document × List Char)
  | 0, _, _ => none
  | fuel + 1, taken, characters =>
      match readValue? fuel characters with
      | none => none
      | some (item, rest) =>
          match skipSpaces rest with
          | ',' :: rest => readItems? fuel (item :: taken) rest
          | ']' :: rest => some (.array (item :: taken).reverse, rest)
          | _ => none

def readMembers? :
    Nat → List (Option String × Document) → List Char → Option (Document × List Char)
  | 0, _, _ => none
  | fuel + 1, taken, characters =>
      match skipSpaces characters with
      | '"' :: rest =>
          match readString? rest with
          | none => none
          | some (name, rest) =>
              match skipSpaces rest with
              | ':' :: rest =>
                  match readValue? fuel rest with
                  | none => none
                  | some (value, rest) =>
                      match skipSpaces rest with
                      | ',' :: rest => readMembers? fuel ((name, value) :: taken) rest
                      | '}' :: rest =>
                          some (.object ((name, value) :: taken).reverse, rest)
                      | _ => none
              | _ => none
      | _ => none
end

/-- The one document a text consists of. -/
def ofText? (text : String) : Option Document :=
  let characters := text.toList
  match readValue? (2 * characters.length + 2) characters with
  | some (document, rest) => if (skipSpaces rest).isEmpty then some document else none
  | none => none

end EventSheet.Json.Document
