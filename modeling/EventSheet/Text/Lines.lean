namespace EventSheet.Text

/-! Lines of text. A line ends at a newline; one carriage return right before
that newline belongs to the line ending. The piece after the last newline is a
line only when it holds a character, and then keeps its carriage returns. -/

/-- The pieces between newlines, the first one apart. There is always a first
piece, and one more for every newline. -/
def splitNewlines (characters : List Char) : List Char × List (List Char) :=
  characters.foldr
    (fun character pieces =>
      if character = '\n' then ([], pieces.1 :: pieces.2)
      else (character :: pieces.1, pieces.2))
    ([], [])

@[simp] theorem splitNewlines_nil : splitNewlines [] = ([], []) := rfl

@[simp] theorem splitNewlines_newline (rest : List Char) :
    splitNewlines ('\n' :: rest) =
      ([], (splitNewlines rest).1 :: (splitNewlines rest).2) := rfl

theorem splitNewlines_cons {head : Char} (rest : List Char) (plain : head ≠ '\n') :
    splitNewlines (head :: rest) =
      (head :: (splitNewlines rest).1, (splitNewlines rest).2) := by
  simp [splitNewlines, plain]

/-- Drop one carriage return at the end. -/
def dropCarriageReturn (line : List Char) : List Char :=
  if line.getLast? = some '\r' then line.dropLast else line

/-- The lines among pieces of which all but the last were ended by a newline. -/
def linesOfPieces (first : List Char) : List (List Char) → List (List Char)
  | [] => if first.isEmpty then [] else [first]
  | second :: rest => dropCarriageReturn first :: linesOfPieces second rest

def lines (characters : List Char) : List (List Char) :=
  let pieces := splitNewlines characters
  linesOfPieces pieces.1 pieces.2

@[simp] theorem lines_nil : lines [] = [] := rfl

end EventSheet.Text
