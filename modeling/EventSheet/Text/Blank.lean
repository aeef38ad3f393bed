namespace EventSheet.Text

/-! Blank text. A character is blank when it has the Unicode property
`White_Space`; user text is trimmed and tested for emptiness by that property,
so a no-break space is trimmed and a zero-width space is not. -/

/-- The code point ranges of `White_Space`, both ends included. -/
def blankRanges : List (Nat × Nat) :=
  [(0x09, 0x0D), (0x20, 0x20), (0x85, 0x85), (0xA0, 0xA0), (0x1680, 0x1680),
   (0x2000, 0x200A), (0x2028, 0x2029), (0x202F, 0x202F), (0x205F, 0x205F),
   (0x3000, 0x3000)]

def isBlank (character : Char) : Bool :=
  blankRanges.any fun range =>
    range.1 ≤ character.toNat && character.toNat ≤ range.2

/-- Drop the blank characters in front. -/
def trimStart (characters : List Char) : List Char :=
  characters.dropWhile isBlank

/-- Drop the blank characters at both ends. -/
def trimCharacters (characters : List Char) : List Char :=
  (trimStart (trimStart characters).reverse).reverse

def trim (text : String) : String :=
  String.ofList (trimCharacters text.toList)

/-- Text without any character that is not blank. -/
def isBlankText (text : String) : Bool :=
  text.toList.all isBlank

theorem isBlank_of_isWhitespace (character : Char)
    (whitespace : character.isWhitespace = true) : isBlank character = true := by
  simp only [Char.isWhitespace, Bool.or_eq_true, decide_eq_true_eq] at whitespace
  rcases whitespace with ((equal | equal) | equal) | equal <;> subst equal <;> decide

@[simp] theorem trimStart_nil : trimStart [] = [] := rfl

theorem trimStart_of_not_blank {head : Char} (tail : List Char)
    (solid : isBlank head = false) : trimStart (head :: tail) = head :: tail := by
  simp [trimStart, solid]

end EventSheet.Text
