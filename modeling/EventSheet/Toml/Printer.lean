import EventSheet.Json.Printer
import EventSheet.Toml.Value
namespace EventSheet.Toml

/-! Writing TOML. A string is written in the first form that suits it: in plain
quotes when nothing has to be escaped, verbatim in apostrophes, then the
multi-line forms of both, and with escapes when nothing else is left. -/

/-- How a string is delimited. -/
inductive StringForm where
  | basic
  | literal
  | multiBasic
  | multiLiteral
deriving DecidableEq

/-- A control character other than the tab and the newline. -/
def isControl (character : Char) : Bool :=
  character ≠ '\n' && !isPlain character

/-- The longest run of a character, `run` being the one the text continues. -/
def longestRun (wanted : Char) (run : Nat) : List Char → Nat
  | [] => run
  | head :: tail =>
      if head = wanted then longestRun wanted (run + 1) tail
      else max run (longestRun wanted 0 tail)

def StringForm.choose (text : List Char) : StringForm :=
  let holdsQuote := text.contains '"'
  let holdsBackslash := text.contains '\\'
  let holdsNewline := text.contains '\n'
  let holdsControl := text.any isControl
  if !holdsQuote && !holdsBackslash && !holdsNewline && !holdsControl then .basic
  else if !text.contains '\'' && !holdsNewline && !holdsControl then .literal
  else if !holdsBackslash && !holdsControl && longestRun '"' 0 text < 3 then .multiBasic
  else if !holdsControl && longestRun '\'' 0 text < 3 then .multiLiteral
  else if holdsNewline then .multiBasic
  else .basic

def hexDigit (value : Nat) : Char :=
  if value < 10 then Char.ofNat (48 + value) else Char.ofNat (55 + value)

/-- A character that is neither a quote nor a newline, escaped if need be. -/
def escape (character : Char) : List Char :=
  if character = '\\' then ['\\', '\\']
  else if character = '\x08' then ['\\', 'b']
  else if character = '\t' then ['\\', 't']
  else if character = '\x0c' then ['\\', 'f']
  else if character = '\r' then ['\\', 'r']
  else if isControl character then
    ['\\', 'u', '0', '0', hexDigit (character.toNat / 16), hexDigit (character.toNat % 16)]
  else [character]

def escapeBasic (character : Char) : List Char :=
  if character = '"' then ['\\', '"']
  else if character = '\n' then ['\\', 'n']
  else escape character

/-- In the multi-line form newlines stand as they are, and of a run of quotes only
each third one is escaped; `run` counts the quotes just written. -/
def escapeMulti (run : Nat) : List Char → List Char
  | [] => []
  | '"' :: tail =>
      if run = 2 then '\\' :: '"' :: escapeMulti 0 tail else '"' :: escapeMulti (run + 1) tail
  | '\n' :: tail => '\n' :: escapeMulti 0 tail
  | head :: tail => escape head ++ escapeMulti 0 tail

/-- A multi-line string that holds a newline starts on a line of its own. -/
def openingBreak (text : List Char) : String :=
  if text.contains '\n' then "\n" else ""

def printString (text : String) : String :=
  let characters := text.toList
  match StringForm.choose characters with
  | .basic => "\"" ++ String.ofList (characters.flatMap escapeBasic) ++ "\""
  | .literal => "'" ++ text ++ "'"
  | .multiBasic =>
      "\"\"\"" ++ openingBreak characters ++ String.ofList (escapeMulti 0 characters) ++ "\"\"\""
  | .multiLiteral => "'''" ++ openingBreak characters ++ text ++ "'''"

/-- A natural number, unless it exceeds the integers of TOML. -/
def printNat? (value : Nat) : Option String :=
  if integerInRange value then some (Nat.repr value) else none

def printBool (value : Bool) : String := if value then "true" else "false"

/-- A line that sets a key. -/
def setting (name value : String) : String := name ++ " = " ++ value ++ "\n"

/-- A section of settings under its header. -/
def tableSection (name : String) (settings : List String) : String :=
  "[" ++ name ++ "]\n" ++ String.join settings

end EventSheet.Toml
