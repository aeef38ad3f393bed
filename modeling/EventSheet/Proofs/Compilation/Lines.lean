import EventSheet.Text.Layout
import Mathlib.Data.List.DropRight
namespace EventSheet.Text

/-! # Lines of texts put together

Generated text is put together from fragments that end with their last line, so its lines are those
of the fragments one after the other. Laying it out changes what is in front of its lines and
nothing else. -/

/-! ## Pieces -/

/-- What is between newlines, as it stands. -/
def pieces (characters : List Char) : List (List Char) :=
  (splitNewlines characters).1 :: (splitNewlines characters).2

theorem splitNewlines_append (left right : List Char) :
    splitNewlines (left ++ '\n' :: right) =
      ((splitNewlines left).1, (splitNewlines left).2 ++ pieces right) := by
  induction left with
  | nil => rfl
  | cons head tail induction =>
      rw [List.cons_append]
      by_cases newline : head = '\n'
      · rw [newline, splitNewlines_newline, splitNewlines_newline, induction, List.cons_append]
      · rw [splitNewlines_cons _ newline, splitNewlines_cons _ newline, induction]

theorem pieces_append_newline (left right : List Char) :
    pieces (left ++ '\n' :: right) = pieces left ++ pieces right := by
  rw [pieces, splitNewlines_append]
  rfl

theorem splitNewlines_of_oneLine {line : List Char} (oneLine : '\n' ∉ line) :
    splitNewlines line = (line, []) := by
  induction line with
  | nil => rfl
  | cons head tail induction =>
      rw [List.mem_cons, not_or] at oneLine
      rw [splitNewlines_cons _ (Ne.symm oneLine.1), induction oneLine.2]

theorem pieces_of_oneLine {line : List Char} (oneLine : '\n' ∉ line) : pieces line = [line] := by
  rw [pieces, splitNewlines_of_oneLine oneLine]

theorem oneLine_of_mem_pieces {characters piece : List Char} (isPiece : piece ∈ pieces characters) :
    '\n' ∉ piece := by
  induction characters generalizing piece with
  | nil =>
      rw [List.mem_singleton.mp isPiece]
      exact List.not_mem_nil
  | cons head tail induction =>
      by_cases newline : head = '\n'
      · rw [newline, pieces, splitNewlines_newline] at isPiece
        rcases List.mem_cons.mp isPiece with isEmpty | isLater
        · rw [isEmpty]
          exact List.not_mem_nil
        · exact induction isLater
      · rw [pieces, splitNewlines_cons _ newline] at isPiece
        rcases List.mem_cons.mp isPiece with isFirst | isLater
        · rw [isFirst, List.mem_cons, not_or]
          exact ⟨Ne.symm newline, induction List.mem_cons_self⟩
        · exact induction (List.mem_cons_of_mem _ isLater)

/-- Lines put together, each with its newline. -/
def unlines (lines : List (List Char)) : List Char := lines.flatMap (· ++ newline)

@[simp] theorem unlines_nil : unlines [] = [] := rfl

@[simp] theorem unlines_cons (line : List Char) (rest : List (List Char)) :
    unlines (line :: rest) = line ++ '\n' :: unlines rest := by
  rw [unlines, List.flatMap_cons, newline, List.append_assoc]
  rfl

@[simp] theorem unlines_append (first second : List (List Char)) :
    unlines (first ++ second) = unlines first ++ unlines second :=
  List.flatMap_append

theorem pieces_unlines {lines : List (List Char)} (oneLine : ∀ line ∈ lines, '\n' ∉ line) :
    pieces (unlines lines) = lines ++ [[]] := by
  induction lines with
  | nil => rfl
  | cons head tail induction =>
      rw [List.forall_mem_cons] at oneLine
      rw [unlines_cons, pieces_append_newline, pieces_of_oneLine oneLine.1, induction oneLine.2]
      rfl

theorem unlines_pieces (characters : List Char) :
    unlines (pieces characters) = characters ++ newline := by
  induction characters with
  | nil => rfl
  | cons head tail induction =>
      rw [pieces, unlines_cons] at induction
      by_cases isNewline : head = '\n'
      · rw [isNewline, pieces, splitNewlines_newline, unlines_cons, unlines_cons, induction]
        rfl
      · rw [pieces, splitNewlines_cons _ isNewline, unlines_cons, List.cons_append, induction]
        rfl

theorem intercalate_pieces (characters : List Char) :
    ['\n'].intercalate (pieces characters) = characters := by
  induction characters with
  | nil => rfl
  | cons head tail induction =>
      by_cases newline : head = '\n'
      · rw [newline, pieces, splitNewlines_newline]
        rw [pieces] at induction
        rw [List.intercalate_cons_cons, induction]
        rfl
      · rw [pieces] at induction ⊢
        rw [splitNewlines_cons _ newline]
        generalize (splitNewlines tail).2 = rest at induction
        cases rest with
        | nil => exact congrArg (head :: ·) induction
        | cons second others =>
            rw [List.intercalate_cons_cons] at induction ⊢
            exact congrArg (head :: ·) induction

theorem infix_of_mem_pieces {characters piece : List Char} (isPiece : piece ∈ pieces characters) :
    piece <:+: characters := by
  have whole := intercalate_pieces characters
  rw [← whole]
  generalize pieces characters = parts at isPiece
  induction parts with
  | nil => cases isPiece
  | cons head tail induction =>
      cases tail with
      | nil =>
          rw [List.mem_singleton.mp isPiece]
          simp
      | cons second rest =>
          rw [List.intercalate_cons_cons]
          rcases List.mem_cons.mp isPiece with rfl | isLater
          · rw [List.append_assoc]
            exact (List.prefix_append _ _).isInfix
          · exact (induction isLater).trans (List.suffix_append _ _).isInfix

/-! ## Lines -/

theorem linesOfPieces_append (first : List Char) (front : List (List Char)) (next : List Char)
    (rest : List (List Char)) :
    linesOfPieces first (front ++ next :: rest) =
      (first :: front).map dropCarriageReturn ++ linesOfPieces next rest := by
  induction front generalizing first with
  | nil => rfl
  | cons head tail induction =>
      rw [List.cons_append, linesOfPieces, induction]
      rfl

/-- A text that ends with a newline, if it is not empty. -/
def EndsLine (characters : List Char) : Prop :=
  characters = [] ∨ ∃ front, characters = front ++ newline

theorem EndsLine.append {left right : List Char} (leftEnds : EndsLine left)
    (rightEnds : EndsLine right) : EndsLine (left ++ right) := by
  rcases rightEnds with rfl | ⟨front, rfl⟩
  · rwa [List.append_nil]
  · exact .inr ⟨left ++ front, (List.append_assoc _ _ _).symm⟩

theorem lines_append {left : List Char} (ends : EndsLine left) (right : List Char) :
    lines (left ++ right) = lines left ++ lines right := by
  have split (front behind : List Char) :
      lines (front ++ '\n' :: behind) =
        (pieces front).map dropCarriageReturn ++ lines behind := by
    rw [lines, splitNewlines_append]
    exact linesOfPieces_append _ _ _ _
  rcases ends with rfl | ⟨front, rfl⟩
  · rfl
  · have alone := split front []
    rw [lines_nil, List.append_nil] at alone
    have single : front ++ newline ++ right = front ++ '\n' :: right := List.append_assoc _ _ _
    rw [single, split, newline, alone]

theorem trimmedLines_append {left : List Char} (ends : EndsLine left) (right : List Char) :
    trimmedLines (left ++ right) = trimmedLines left ++ trimmedLines right := by
  rw [trimmedLines, lines_append ends, List.map_append, trimmedLines, trimmedLines]

theorem lines_line {line : List Char} (oneLine : '\n' ∉ line)
    (whole : dropCarriageReturn line = line) : lines (line ++ newline) = [line] := by
  have split : splitNewlines (line ++ '\n' :: []) = _ := splitNewlines_append line []
  rw [splitNewlines_of_oneLine oneLine] at split
  rw [lines, newline, split]
  change [dropCarriageReturn line] = _
  rw [whole]

theorem trimmedLines_line {line : List Char} (oneLine : '\n' ∉ line)
    (whole : dropCarriageReturn line = line) :
    trimmedLines (line ++ newline) = [trimStart line] := by
  rw [trimmedLines, lines_line oneLine whole, List.map_singleton]

theorem lines_unlines {lines : List (List Char)} (oneLine : ∀ line ∈ lines, '\n' ∉ line)
    (whole : ∀ line ∈ lines, dropCarriageReturn line = line) :
    Text.lines (unlines lines) = lines := by
  induction lines with
  | nil => rfl
  | cons head tail induction =>
      rw [List.forall_mem_cons] at oneLine whole
      rw [unlines, List.flatMap_cons, lines_append (.inr ⟨head, rfl⟩),
        lines_line oneLine.1 whole.1, ← unlines, induction oneLine.2 whole.2]
      rfl

theorem endsLine_unlines (lines : List (List Char)) : EndsLine (unlines lines) := by
  induction lines with
  | nil => exact .inl rfl
  | cons head tail induction =>
      rw [unlines, List.flatMap_cons]
      exact EndsLine.append (.inr ⟨head, rfl⟩) induction

theorem trimmedLines_unlines (lines : List (List Char)) :
    trimmedLines (unlines lines) = lines.flatMap fun line => trimmedLines (line ++ newline) := by
  induction lines with
  | nil => rfl
  | cons head tail induction =>
      rw [List.flatMap_cons, ← induction, ← trimmedLines_append (.inr ⟨head, rfl⟩)]
      rfl

/-- A line that is read back as it was written. -/
structure Stays (line : List Char) : Prop where
  oneLine : '\n' ∉ line
  whole : dropCarriageReturn line = line
  trimmed : trimStart line = line

theorem Stays.of_ends {first last : Char} {middle : List Char} (solid : isBlank first = false)
    (ends : last ≠ '\r') (oneLine : '\n' ∉ first :: (middle ++ [last])) :
    Stays (first :: (middle ++ [last])) where
  oneLine := oneLine
  whole := by
    rw [dropCarriageReturn, ← List.cons_append, List.getLast?_append, if_neg]
    simpa using ends
  trimmed := trimStart_of_not_blank _ solid

theorem trimmedLines_unlines_of_stays {lines : List (List Char)}
    (stays : ∀ line ∈ lines, Stays line) : trimmedLines (unlines lines) = lines := by
  rw [trimmedLines_unlines]
  induction lines with
  | nil => rfl
  | cons head tail induction =>
      rw [List.forall_mem_cons] at stays
      rw [List.flatMap_cons, induction stays.2, trimmedLines_line stays.1.oneLine stays.1.whole,
        stays.1.trimmed]
      rfl

/-! ## Laid out lines -/

/-- The lines that lines are laid out as, without their newlines. -/
def indented (unit : List Char) (depth : Nat) : List (List Char) → List (List Char)
  | [] => []
  | line :: rest =>
      let depth := lineDepth depth line
      (if line.isEmpty then [] else (List.replicate depth unit).flatten ++ line) ::
        indented unit (depthAfter depth line) rest

/-- The lines behind others are laid out from the depth these end at. -/
theorem exists_indented_append (unit : List Char) (depth : Nat) (front : List (List Char)) :
    ∃ behind, ∀ rest, indented unit depth (front ++ rest) =
      indented unit depth front ++ indented unit behind rest := by
  induction front generalizing depth with
  | nil => exact ⟨depth, fun _ => rfl⟩
  | cons head tail induction =>
      rcases induction (depthAfter (lineDepth depth head) head) with ⟨behind, append⟩
      refine ⟨behind, fun rest => ?_⟩
      rw [List.cons_append, indented, append, indented, List.cons_append]

theorem layoutLines_eq (unit : List Char) (depth : Nat) (trimmed : List (List Char)) :
    layoutLines unit depth trimmed = (indented unit depth trimmed).map (· ++ newline) := by
  induction trimmed generalizing depth with
  | nil => rfl
  | cons line rest induction => rw [layoutLines, induction, indented, List.map_cons, layoutLine]

theorem layoutCharacters_eq (unit characters : List Char) :
    layoutCharacters unit characters = unlines (indented unit 0 (trimmedLines characters)) := by
  rw [layoutCharacters, layoutLines_eq, unlines, List.flatMap_def]

theorem prefix_of_mem_linesOfPieces {first line : List Char} {rest : List (List Char)}
    (isLine : line ∈ linesOfPieces first rest) : ∃ piece ∈ first :: rest, line <+: piece := by
  induction rest generalizing first with
  | nil =>
      rw [linesOfPieces] at isLine
      split at isLine
      · cases isLine
      · rw [List.mem_singleton.mp isLine]
        exact ⟨first, List.mem_cons_self, List.prefix_refl _⟩
  | cons second rest induction =>
      rcases List.mem_cons.mp isLine with rfl | isLater
      · refine ⟨first, List.mem_cons_self, ?_⟩
        rw [dropCarriageReturn]
        split
        · exact List.dropLast_prefix _
        · exact List.prefix_refl _
      · rcases induction isLater with ⟨piece, isPiece, isPrefix⟩
        exact ⟨piece, List.mem_cons_of_mem _ isPiece, isPrefix⟩

theorem infix_of_mem_lines {characters line : List Char} (isLine : line ∈ lines characters) :
    line <:+: characters := by
  rcases prefix_of_mem_linesOfPieces isLine with ⟨piece, isPiece, isPrefix⟩
  exact isPrefix.isInfix.trans (infix_of_mem_pieces isPiece)

theorem infix_of_mem_trimmedLines {characters line : List Char}
    (isLine : line ∈ trimmedLines characters) : line <:+: characters := by
  rcases List.mem_map.mp isLine with ⟨whole, isWhole, rfl⟩
  exact (List.dropWhile_suffix isBlank).isInfix.trans (infix_of_mem_lines isWhole)

theorem oneLine_of_mem_lines {characters line : List Char} (isLine : line ∈ lines characters) :
    '\n' ∉ line := by
  rcases prefix_of_mem_linesOfPieces isLine with ⟨piece, isPiece, isPrefix⟩
  exact fun isNewline => oneLine_of_mem_pieces isPiece (isPrefix.subset isNewline)

theorem oneLine_of_mem_trimmedLines {characters line : List Char}
    (isLine : line ∈ trimmedLines characters) : '\n' ∉ line := by
  rcases List.mem_map.mp isLine with ⟨whole, isWhole, rfl⟩
  exact fun isNewline =>
    oneLine_of_mem_lines isWhole ((List.dropWhile_sublist isBlank).subset isNewline)

theorem oneLine_of_mem_indented {unit : List Char} (unitOneLine : '\n' ∉ unit)
    {lines : List (List Char)} (oneLine : ∀ line ∈ lines, '\n' ∉ line) (depth : Nat) :
    ∀ line ∈ indented unit depth lines, '\n' ∉ line := by
  induction lines generalizing depth with
  | nil => exact fun _ isLine => nomatch isLine
  | cons head tail induction =>
      rw [List.forall_mem_cons] at oneLine
      rw [indented, List.forall_mem_cons]
      refine ⟨?_, induction oneLine.2 _⟩
      split
      · exact List.not_mem_nil
      · rw [List.mem_append, List.mem_flatten, not_or]
        refine ⟨?_, oneLine.1⟩
        rintro ⟨part, isPart, isNewline⟩
        rw [List.eq_of_mem_replicate isPart] at isNewline
        exact unitOneLine isNewline

/-- The pieces of a text that was laid out are its lines, moved to their depths. -/
theorem pieces_layoutCharacters {unit : List Char} (unitOneLine : '\n' ∉ unit)
    (characters : List Char) :
    pieces (layoutCharacters unit characters) =
      indented unit 0 (trimmedLines characters) ++ [[]] := by
  rw [layoutCharacters_eq]
  exact pieces_unlines (oneLine_of_mem_indented unitOneLine
    (fun _ isLine => oneLine_of_mem_trimmedLines isLine) 0)

theorem trimStart_append {blanks : List Char} (blank : ∀ character ∈ blanks, isBlank character)
    (line : List Char) : trimStart (blanks ++ line) = trimStart line :=
  List.dropWhile_append_of_pos blank

theorem map_trimStart_indented {unit : List Char} (blank : ∀ character ∈ unit, isBlank character)
    {lines : List (List Char)} (trimmed : ∀ line ∈ lines, trimStart line = line) (depth : Nat) :
    (indented unit depth lines).map trimStart = lines := by
  induction lines generalizing depth with
  | nil => rfl
  | cons head tail induction =>
      rw [List.forall_mem_cons] at trimmed
      rw [indented, List.map_cons, induction trimmed.2]
      congr 1
      cases head with
      | nil => rfl
      | cons first rest =>
          rw [List.isEmpty_cons, if_neg Bool.false_ne_true, trimStart_append, trimmed.1]
          intro character isIndentation
          rcases List.mem_flatten.mp isIndentation with ⟨part, isPart, isCharacter⟩
          rw [List.eq_of_mem_replicate isPart] at isCharacter
          exact blank character isCharacter

theorem trimStart_of_mem_trimmedLines {characters line : List Char}
    (isLine : line ∈ trimmedLines characters) : trimStart line = line := by
  rcases List.mem_map.mp isLine with ⟨whole, _, same⟩
  rw [← same]
  exact List.dropWhile_idempotent _ _

/-- Laid out text has the lines of the text it was made from, but for the blanks in front. -/
theorem map_trimStart_pieces {unit : List Char} (unitOneLine : '\n' ∉ unit)
    (blank : ∀ character ∈ unit, isBlank character) (characters : List Char) :
    (pieces (layoutCharacters unit characters)).map trimStart =
      trimmedLines characters ++ [[]] := by
  rw [pieces_layoutCharacters unitOneLine, List.map_append,
    map_trimStart_indented blank fun _ isLine => trimStart_of_mem_trimmedLines isLine]
  rfl

end EventSheet.Text
