import EventSheet.Text.Blank
import EventSheet.Text.Lines
namespace EventSheet.Text

/-! Laying out generated text. `indent` moves a finished fragment one level to
the right; `layoutBlocks` lays a whole flat program out in one pass, reading the
depth of each line off the braces that open and close blocks. -/

def newline : List Char := ['\n']

/-- One indented line; an empty line stays empty. -/
def indentLine (unit line : List Char) : List Char :=
  (if line.isEmpty then [] else unit ++ line) ++ newline

def indentCharacters (unit characters : List Char) : List Char :=
  (lines characters).flatMap (indentLine unit)

/-- Indent every non-empty line by one unit and end every line with a newline.
The empty unit leaves the text as it is. -/
def indent (code unit : String) : String :=
  if unit.isEmpty then code
  else String.ofList (indentCharacters unit.toList code.toList)

/-! The depth of blocks. -/

/-- A line that starts with a closing brace belongs to the enclosing block. A
closing brace without an opening one is laid out at the margin. -/
def closesBlock (line : List Char) : Bool := line.head? = some '}'

def opensBlock (line : List Char) : Bool := line.getLast? = some '{'

/-- The depth a line is laid out at, given the depth before it. -/
def lineDepth (depth : Nat) (line : List Char) : Nat :=
  if closesBlock line then depth - 1 else depth

/-- The depth after a line laid out at `depth`. -/
def depthAfter (depth : Nat) (line : List Char) : Nat :=
  if opensBlock line then depth + 1 else depth

/-- One line at a depth; an empty line stays empty. -/
def layoutLine (unit : List Char) (depth : Nat) (line : List Char) : List Char :=
  (if line.isEmpty then [] else (List.replicate depth unit).flatten ++ line) ++ newline

/-- Lay out lines whose leading blanks are already gone. -/
def layoutLines (unit : List Char) (depth : Nat) : List (List Char) → List (List Char)
  | [] => []
  | line :: rest =>
      let depth := lineDepth depth line
      layoutLine unit depth line :: layoutLines unit (depthAfter depth line) rest

/-- The lines of a text without their leading blanks. -/
def trimmedLines (characters : List Char) : List (List Char) :=
  (lines characters).map trimStart

def layoutCharacters (unit characters : List Char) : List Char :=
  (layoutLines unit 0 (trimmedLines characters)).flatten

/-- Indent line-structured code by block depth. Indentation already there is
replaced, so laying out twice is laying out once. -/
def layoutBlocks (code unit : String) : String :=
  String.ofList (layoutCharacters unit.toList code.toList)

@[simp] theorem layoutLines_nil (unit : List Char) (depth : Nat) :
    layoutLines unit depth [] = [] := rfl

theorem length_layoutLines (unit : List Char) (depth : Nat)
    (trimmed : List (List Char)) :
    (layoutLines unit depth trimmed).length = trimmed.length := by
  induction trimmed generalizing depth with
  | nil => rfl
  | cons line rest induction => simp [layoutLines, induction]

end EventSheet.Text
