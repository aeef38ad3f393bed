import EventSheet.Number.Scaled
import EventSheet.Toml.Value
namespace EventSheet.Toml

/-! The scalars of TOML: strings, numbers and dates. Every reader gives
what it read and the rest of the text. -/

def isSpace (character : Char) : Bool := character = ' ' || character = '\t'

def skipSpaces (characters : List Char) : List Char := characters.dropWhile isSpace

/-- The rest behind a line break. A carriage return breaks a line only together
with the newline behind it. -/
def newline? : List Char → Option (List Char)
  | '\n' :: rest => some rest
  | '\r' :: '\n' :: rest => some rest
  | _ => none

/-! ## Strings -/

def hexValue? (character : Char) : Option Nat :=
  if '0' ≤ character && character ≤ '9' then some (character.toNat - 48)
  else if 'a' ≤ character && character ≤ 'f' then some (character.toNat - 87)
  else if 'A' ≤ character && character ≤ 'F' then some (character.toNat - 55)
  else none

/-- The character of a hexadecimal code point. -/
def characterOfHex? (digits : List Char) : Option Char := do
  let digits ← digits.mapM hexValue?
  let code := digits.foldl (fun value digit => value * 16 + digit) 0
  if code < 0xD800 || (0xDFFF < code && code < 0x110000) then some (Char.ofNat code) else none

/-- What stands behind a backslash, line breaks apart. -/
def readEscape? : List Char → Option (Char × List Char)
  | 'b' :: rest => some ('\x08', rest)
  | 't' :: rest => some ('\t', rest)
  | 'n' :: rest => some ('\n', rest)
  | 'f' :: rest => some ('\x0c', rest)
  | 'r' :: rest => some ('\r', rest)
  | '"' :: rest => some ('"', rest)
  | '\\' :: rest => some ('\\', rest)
  | 'u' :: rest =>
      if rest.length < 4 then none
      else (characterOfHex? (rest.take 4)).map fun character => (character, rest.drop 4)
  | 'U' :: rest =>
      if rest.length < 8 then none
      else (characterOfHex? (rest.take 8)).map fun character => (character, rest.drop 8)
  | _ => none

/-- A string in quotes on one line, behind its opening quote; `taken` holds what
was read, the last character first. -/
def readBasic? (taken : List Char) : (fuel : Nat) → List Char → Option (String × List Char)
  | 0, _ => none
  | _ + 1, [] => none
  | _ + 1, '"' :: rest => some (String.ofList taken.reverse, rest)
  | fuel + 1, '\\' :: rest =>
      match readEscape? rest with
      | some (character, rest) => readBasic? (character :: taken) fuel rest
      | none => none
  | fuel + 1, head :: rest => if isPlain head then readBasic? (head :: taken) fuel rest else none

/-- A string in apostrophes on one line, behind its opening apostrophe. -/
def readLiteral? (taken : List Char) : List Char → Option (String × List Char)
  | [] => none
  | '\'' :: rest => some (String.ofList taken.reverse, rest)
  | head :: rest => if isPlain head then readLiteral? (head :: taken) rest else none

/-- At a delimiter inside a multi-line string: fewer than three belong to the
string, and up to two belong to it in front of the closing three. -/
def closing? (delimiter : Char) (characters : List Char) : Nat × Option (List Char) :=
  let run := (characters.takeWhile (· = delimiter)).length
  if run < 3 then (run, none)
  else
    let kept := min (run - 3) 2
    (kept, some (characters.drop (kept + 3)))

/-- Blanks and line breaks behind an escaped line break. -/
def skipBlankLines : List Char → List Char
  | ' ' :: rest => skipBlankLines rest
  | '\t' :: rest => skipBlankLines rest
  | '\n' :: rest => skipBlankLines rest
  | '\r' :: '\n' :: rest => skipBlankLines rest
  | rest => rest

/-- A multi-line string in quotes. Line breaks are kept as newlines; a backslash
at the end of a line swallows the break and the blanks behind it. -/
def readMultiBasic? (taken : List Char) : (fuel : Nat) → List Char → Option (String × List Char)
  | 0, _ => none
  | fuel + 1, characters =>
      match characters with
      | [] => none
      | '"' :: _ =>
          let (count, closed) := closing? '"' characters
          let taken := List.replicate count '"' ++ taken
          match closed with
          | some rest => some (String.ofList taken.reverse, rest)
          | none => readMultiBasic? taken fuel (characters.drop count)
      | '\\' :: rest =>
          match newline? (skipSpaces rest) with
          | some rest => readMultiBasic? taken fuel (skipBlankLines rest)
          | none =>
              match readEscape? rest with
              | some (character, rest) => readMultiBasic? (character :: taken) fuel rest
              | none => none
      | head :: rest =>
          match newline? characters with
          | some rest => readMultiBasic? ('\n' :: taken) fuel rest
          | none => if isPlain head then readMultiBasic? (head :: taken) fuel rest else none

/-- A multi-line string in apostrophes, kept as it is but for its line breaks. -/
def readMultiLiteral? (taken : List Char) : (fuel : Nat) → List Char → Option (String × List Char)
  | 0, _ => none
  | fuel + 1, characters =>
      match characters with
      | [] => none
      | '\'' :: _ =>
          let (count, closed) := closing? '\'' characters
          let taken := List.replicate count '\'' ++ taken
          match closed with
          | some rest => some (String.ofList taken.reverse, rest)
          | none => readMultiLiteral? taken fuel (characters.drop count)
      | head :: rest =>
          match newline? characters with
          | some rest => readMultiLiteral? ('\n' :: taken) fuel rest
          | none => if isPlain head then readMultiLiteral? (head :: taken) fuel rest else none

/-- A line break right behind the opening of a multi-line string is dropped. -/
def dropFirstBreak (characters : List Char) : List Char :=
  (newline? characters).getD characters

/-- A string of any of the four forms. -/
def readString? (characters : List Char) : Option (String × List Char) :=
  let fuel := characters.length + 1
  match characters with
  | '"' :: '"' :: '"' :: rest => readMultiBasic? [] fuel (dropFirstBreak rest)
  | '"' :: rest => readBasic? [] fuel rest
  | '\'' :: '\'' :: '\'' :: rest => readMultiLiteral? [] fuel (dropFirstBreak rest)
  | '\'' :: rest => readLiteral? [] rest
  | _ => none

/-! ## Numbers -/

def isDigit (character : Char) : Bool := '0' ≤ character && character ≤ '9'

/-- Digits that may be separated by single underscores, at least one. -/
def readDigits? (isDigit : Char → Bool) (taken : List Char) : List Char → Option (List Char × List Char)
  | '_' :: digit :: rest =>
      if isDigit digit && !taken.isEmpty then readDigits? isDigit (digit :: taken) rest
      else if taken.isEmpty then none else some (taken.reverse, '_' :: digit :: rest)
  | head :: rest =>
      if isDigit head then readDigits? isDigit (head :: taken) rest
      else if taken.isEmpty then none else some (taken.reverse, head :: rest)
  | [] => if taken.isEmpty then none else some (taken.reverse, [])

def decimalValues (digits : List Char) : List Nat := digits.map fun digit => digit.toNat - 48

/-- A sign, if there is one; true for minus. -/
def readSign : List Char → Bool × List Char
  | '-' :: rest => (true, rest)
  | '+' :: rest => (false, rest)
  | rest => (false, rest)

/-- Decimal digits without a needless zero in front: behind a zero there is no
further digit. -/
def readWhole? (characters : List Char) : Option (List Char × List Char) :=
  match characters with
  | '0' :: rest => some (['0'], rest)
  | _ => readDigits? isDigit [] characters

/-- An integer in another base, behind the mark of the base. -/
def readBase? (base : Nat) (characters : List Char) : Option (Value × List Char) := do
  let valid (digit : Char) : Bool :=
    match hexValue? digit with
    | some value => value < base
    | none => false
  let (digits, rest) ← readDigits? valid [] characters
  let values := digits.filterMap hexValue?
  let value : Nat := values.foldl (fun value digit => value * base + digit) 0
  if integerInRange value then some (.integer value, rest) else none

/-- The fraction and the power of a float, of which one has to be there. -/
def readFloatTail? (characters : List Char) :
    Option ((List Char × Bool × List Char) × List Char) := do
  let (fraction, rest) ← match characters with
    | '.' :: rest => readDigits? isDigit [] rest
    | rest => some ([], rest)
  match rest with
  | head :: tail =>
      if head = 'e' || head = 'E' then
        let (negativePower, tail) := readSign tail
        let (power, tail) ← readDigits? isDigit [] tail
        some ((fraction, negativePower, power), tail)
      else if fraction.isEmpty then none else some ((fraction, false, []), rest)
  | [] => if fraction.isEmpty then none else some ((fraction, false, []), rest)

/-- The least magnitude that rounds to infinity. -/
def leastInfinite : Nat := Nat.pow 2 1024 - Nat.pow 2 970

/-- A decimal number is so large that it rounds to infinity. -/
def roundsToInfinity (digits : List Nat) (exponent : Int) : Bool :=
  let value := Number.natOfDigits digits
  if value = 0 then false
  else if 0 ≤ exponent then
    310 < exponent || leastInfinite ≤ value * Nat.pow 10 exponent.toNat
  else
    let places := (Nat.toDigits 10 value).length
    (310 : Int) < places + exponent ||
      ((300 : Int) < places + exponent && leastInfinite * Nat.pow 10 (-exponent).toNat ≤ value)

/-- A positive float beyond the greatest double is refused, a negative one is
not. -/
def floatInRange (negative : Bool) (whole fraction : List Char) (negativePower : Bool)
    (power : List Char) : Bool :=
  let power : Int := Number.natOfDigits (decimalValues power)
  let exponent : Int := (if negativePower then -power else power) - fraction.length
  negative || !roundsToInfinity (decimalValues (whole ++ fraction)) exponent

/-- A float or an integer; the float is tried first. -/
def readNumber? (characters : List Char) : Option (Value × List Char) := do
  match characters with
  | '0' :: 'x' :: rest => readBase? 16 rest
  | '0' :: 'o' :: rest => readBase? 8 rest
  | '0' :: 'b' :: rest => readBase? 2 rest
  | _ =>
      let (negative, rest) := readSign characters
      match rest with
      | 'i' :: 'n' :: 'f' :: rest => some (.float, rest)
      | 'n' :: 'a' :: 'n' :: rest => some (.float, rest)
      | _ =>
          let (whole, rest) ← readWhole? rest
          match readFloatTail? rest with
          | some ((fraction, negativePower, power), rest) =>
              if floatInRange negative whole fraction negativePower power then
                some (.float, rest)
              else none
          | none =>
              let magnitude := Number.natOfDigits (decimalValues whole)
              let value : Int := if negative then -(magnitude : Int) else magnitude
              if integerInRange value then some (.integer value, rest) else none

/-! ## Dates and times -/

/-- A number of exactly so many digits between two bounds. -/
def readFixed? (width least greatest : Nat) (characters : List Char) : Option (Nat × List Char) :=
  let digits := characters.take width
  if digits.length = width && digits.all isDigit then
    let value := Number.natOfDigits (decimalValues digits)
    if least ≤ value && value ≤ greatest then some (value, characters.drop width) else none
  else none

def expect? (expected : Char) : List Char → Option (List Char)
  | head :: rest => if head = expected then some rest else none
  | [] => none

def daysInMonth (year month : Nat) : Nat :=
  if month = 2 then
    if year % 4 = 0 && (year % 100 ≠ 0 || year % 400 = 0) then 29 else 28
  else if month = 4 || month = 6 || month = 9 || month = 11 then 30
  else 31

/-- Year, month and day; the rest behind them. -/
def readDate? (characters : List Char) : Option (List Char) := do
  let (year, rest) ← readFixed? 4 0 9999 characters
  let rest ← expect? '-' rest
  let (month, rest) ← readFixed? 2 1 12 rest
  let rest ← expect? '-' rest
  let (_, rest) ← readFixed? 2 1 (daysInMonth year month) rest
  return rest

/-- Hours, minutes and seconds, with a fraction if there is one. -/
def readTime? (characters : List Char) : Option (List Char) := do
  let (_, rest) ← readFixed? 2 0 23 characters
  let rest ← expect? ':' rest
  let (_, rest) ← readFixed? 2 0 59 rest
  let rest ← expect? ':' rest
  let (_, rest) ← readFixed? 2 0 60 rest
  match rest with
  | '.' :: digits =>
      let behind := digits.dropWhile isDigit
      if behind.length < digits.length then some behind else none
  | rest => some rest

/-- An offset from universal time, if there is one. -/
def readOffset? : List Char → Option (List Char)
  | 'Z' :: rest => some rest
  | 'z' :: rest => some rest
  | '+' :: rest => hoursAndMinutes? rest
  | '-' :: rest => hoursAndMinutes? rest
  | rest => some rest
where
  hoursAndMinutes? (characters : List Char) : Option (List Char) := do
    let (_, rest) ← readFixed? 2 0 23 characters
    let rest ← expect? ':' rest
    let (_, rest) ← readFixed? 2 0 59 rest
    return rest

/-- The text starts like a date: four digits and a hyphen. -/
def startsDate (characters : List Char) : Bool :=
  match readFixed? 4 0 9999 characters with
  | some (_, '-' :: _) => true
  | _ => false

/-- The text starts like a time: two digits and a colon. -/
def startsTime (characters : List Char) : Bool :=
  match readFixed? 2 0 23 characters with
  | some (_, ':' :: _) => true
  | _ => false

/-- A date, a time, or both. Behind a date a blank may stand before the time, and
also in front of something that is no time. -/
def readDateTime? (characters : List Char) : Option (Value × List Char) := do
  if startsDate characters then
    let rest ← readDate? characters
    match rest with
    | mark :: behind =>
        if (mark = 'T' || mark = 't' || mark = ' ') && startsTime behind then
          let rest ← readTime? behind
          let rest ← readOffset? rest
          return (.dateTime, rest)
        else return (.dateTime, rest)
    | [] => return (.dateTime, rest)
  else
    let rest ← readTime? characters
    return (.dateTime, rest)

/-- A boolean, a date or a number. -/
def readPlainScalar? (characters : List Char) : Option (Value × List Char) :=
  match characters with
  | 't' :: 'r' :: 'u' :: 'e' :: rest => some (.boolean true, rest)
  | 'f' :: 'a' :: 'l' :: 's' :: 'e' :: rest => some (.boolean false, rest)
  | _ =>
      if startsDate characters || startsTime characters then readDateTime? characters
      else readNumber? characters

end EventSheet.Toml
