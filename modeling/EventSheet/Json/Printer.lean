import EventSheet.Json.Value
import EventSheet.Number.Shortest
namespace EventSheet.Json

/-! JSON text. The compact form has no blanks; the pretty form puts every item
and member on a line of its own, two spaces deeper than its container, and
keeps empty containers on one line. -/

/-! ## Strings -/

def hexDigit (value : Nat) : Char :=
  if value < 10 then Char.ofNat (48 + value) else Char.ofNat (87 + value)

/-- A quote, a backslash and the control characters below a space are escaped,
everything else is written as it is. -/
def escape (character : Char) : List Char :=
  if character = '"' then ['\\', '"']
  else if character = '\\' then ['\\', '\\']
  else if character = '\x08' then ['\\', 'b']
  else if character = '\t' then ['\\', 't']
  else if character = '\n' then ['\\', 'n']
  else if character = '\x0c' then ['\\', 'f']
  else if character = '\r' then ['\\', 'r']
  else if character.toNat < 32 then
    ['\\', 'u', '0', '0', hexDigit (character.toNat / 16), hexDigit (character.toNat % 16)]
  else [character]

def printString (text : String) : String :=
  "\"" ++ String.ofList (text.toList.flatMap escape) ++ "\""

/-! ## Numbers -/

/-- Zeros between the point and the digits of a small number, at most. -/
def greatestLeadingZeros : Int := 4

/-- Places in front of the point of a number written without a power of ten, at
most. -/
def greatestPlaces : Int := 16

def zeros (count : Nat) : String := String.ofList (List.replicate count '0')

/-- The power of ten that ends a number, its sign always written. -/
def printPower (power : Int) : String :=
  (if power < 0 then "e-" else "e+") ++ Nat.repr power.natAbs

/-- A decimal is written with a point when it is neither too large nor too
small, and otherwise with one digit in front of the point and a power of ten. -/
def printDecimal (decimal : Number.Decimal) : String :=
  let digits := Nat.repr decimal.digits
  let count : Int := digits.length
  let places := count + decimal.exponent
  if 0 ≤ decimal.exponent && places ≤ greatestPlaces then
    digits ++ zeros decimal.exponent.toNat ++ ".0"
  else if 0 < places && places ≤ greatestPlaces then
    String.ofList (digits.toList.take places.toNat) ++ "." ++
      String.ofList (digits.toList.drop places.toNat)
  else if -greatestLeadingZeros ≤ places && places ≤ 0 then
    "0." ++ zeros (-places).toNat ++ digits
  else
    let power := printPower (places - 1)
    match digits.toList with
    | [single] => String.ofList [single] ++ power
    | first :: rest => String.ofList [first] ++ "." ++ String.ofList rest ++ power
    | [] => ""

/-- The shortest text that reads back as the double. -/
def printDouble (bits : UInt64) : String :=
  let sign := if bits >>> 63 = 1 then "-" else ""
  let value := Number.Dyadic.ofBits bits
  if value.mantissa = 0 then sign ++ "0.0" else sign ++ printDecimal value.shortest

def printNumber : Number → String
  | .natural value => Nat.repr value
  | .negative magnitude => "-" ++ Nat.repr magnitude
  | .double bits => printDouble bits

/-! ## Compact text -/

mutual
def compact : Json → String
  | .null => "null"
  | .bool true => "true"
  | .bool false => "false"
  | .number value => printNumber value
  | .string text => printString text
  | .array items => "[" ++ ",".intercalate (compactItems items) ++ "]"
  | .object members => "\x7b" ++ ",".intercalate (compactMembers members) ++ "\x7d"

def compactItems : List Json → List String
  | [] => []
  | head :: tail => compact head :: compactItems tail

def compactMembers : List (String × Json) → List String
  | [] => []
  | (name, value) :: tail => (printString name ++ ":" ++ compact value) :: compactMembers tail
end

/-! ## Pretty text -/

/-- A line break with the indentation of a depth. -/
def lineBreak (depth : Nat) : String :=
  "\n" ++ String.ofList (List.replicate (2 * depth) ' ')

/-- Entries on lines of their own between brackets. -/
def bracketed (opening closing : String) (depth : Nat) (entries : List String) : String :=
  match entries with
  | [] => opening ++ closing
  | entries =>
      opening ++ lineBreak (depth + 1) ++
        ("," ++ lineBreak (depth + 1)).intercalate entries ++ lineBreak depth ++ closing

mutual
def prettyAt (depth : Nat) : Json → String
  | .null => "null"
  | .bool true => "true"
  | .bool false => "false"
  | .number value => printNumber value
  | .string text => printString text
  | .array items => bracketed "[" "]" depth (prettyItems (depth + 1) items)
  | .object members => bracketed "\x7b" "\x7d" depth (prettyMembers (depth + 1) members)

def prettyItems (depth : Nat) : List Json → List String
  | [] => []
  | head :: tail => prettyAt depth head :: prettyItems depth tail

def prettyMembers (depth : Nat) : List (String × Json) → List String
  | [] => []
  | (name, value) :: tail =>
      (printString name ++ ": " ++ prettyAt depth value) :: prettyMembers depth tail
end

def pretty (value : Json) : String := prettyAt 0 value

end EventSheet.Json
