import EventSheet.Proofs.Compilation.BlockDepth
namespace EventSheet.Text

/-! # Layout on top of layout

The depth of a line is read off the lines without the blanks in front of them, and laying out or
indenting changes nothing but these blanks. So a layout takes no notice of an earlier one. -/

variable {unit characters line : List Char}

/-- What may stand in front of a line: blanks, of which none ends it. -/
def IsMargin (unit : List Char) : Prop :=
  ∀ character ∈ unit, isBlank character = true ∧ character ≠ '\n'

instance (unit : List Char) : Decidable (IsMargin unit) := List.decidableBAll _ unit

namespace IsMargin

theorem blank (margin : IsMargin unit) : ∀ character ∈ unit, isBlank character = true :=
  fun character isCharacter => (margin character isCharacter).1

theorem oneLine (margin : IsMargin unit) : '\n' ∉ unit :=
  fun isNewline => (margin '\n' isNewline).2 rfl

end IsMargin

/-! ## Lines that are read back -/

theorem dropCarriageReturn_of_not_mem (noReturn : '\r' ∉ line) : dropCarriageReturn line = line :=
  if_neg fun isLast => noReturn (List.mem_of_getLast? isLast)

theorem whole_of_mem_lines (noReturn : '\r' ∉ characters) (isLine : line ∈ lines characters) :
    dropCarriageReturn line = line :=
  dropCarriageReturn_of_not_mem fun isReturn =>
    noReturn ((infix_of_mem_lines isLine).subset isReturn)

theorem whole_of_mem_trimmedLines (noReturn : '\r' ∉ characters)
    (isLine : line ∈ trimmedLines characters) : dropCarriageReturn line = line :=
  dropCarriageReturn_of_not_mem fun isReturn =>
    noReturn ((infix_of_mem_trimmedLines isLine).subset isReturn)

/-! ## What is left of the lines -/

/-- Laying out moves lines, and keeps them. -/
theorem trimmedLines_layoutCharacters (margin : IsMargin unit) (noReturn : '\r' ∉ characters) :
    trimmedLines (layoutCharacters unit characters) = trimmedLines characters := by
  have oneLine : ∀ line ∈ indented unit 0 (trimmedLines characters), '\n' ∉ line :=
    oneLine_of_mem_indented margin.oneLine (fun _ isLine => oneLine_of_mem_trimmedLines isLine) 0
  have whole : ∀ line ∈ indented unit 0 (trimmedLines characters),
      dropCarriageReturn line = line :=
    whole_of_mem_indented fun _ isLine => whole_of_mem_trimmedLines noReturn isLine
  rw [layoutCharacters_eq, trimmedLines, lines_unlines oneLine whole,
    map_trimStart_indented margin.blank fun _ isLine => trimStart_of_mem_trimmedLines isLine]

theorem trimStart_moved (margin : IsMargin unit) (line : List Char) :
    trimStart (moved unit line) = trimStart line := by
  cases line with
  | nil => rfl
  | cons first rest => exact trimStart_append margin.blank (first :: rest)

theorem oneLine_moved (unitOneLine : '\n' ∉ unit) (oneLine : '\n' ∉ line) :
    '\n' ∉ moved unit line := by
  rw [moved]
  split
  · exact List.not_mem_nil
  · rw [List.mem_append, not_or]
    exact ⟨unitOneLine, oneLine⟩

theorem dropCarriageReturn_moved (unit : List Char) (whole : dropCarriageReturn line = line) :
    dropCarriageReturn (moved unit line) = moved unit line := by
  cases line with
  | nil => rfl
  | cons first rest => exact dropCarriageReturn_append unit (List.cons_ne_nil first rest) whole

/-- Indenting moves lines, and keeps them. -/
theorem trimmedLines_indentCharacters (margin : IsMargin unit) (noReturn : '\r' ∉ characters) :
    trimmedLines (indentCharacters unit characters) = trimmedLines characters := by
  have oneLine : ∀ line ∈ (lines characters).map (moved unit), '\n' ∉ line :=
    List.forall_mem_map.mpr fun _ isLine => oneLine_moved margin.oneLine (oneLine_of_mem_lines isLine)
  have whole : ∀ line ∈ (lines characters).map (moved unit), dropCarriageReturn line = line :=
    List.forall_mem_map.mpr fun _ isLine =>
      dropCarriageReturn_moved unit (whole_of_mem_lines noReturn isLine)
  rw [indentCharacters_eq, trimmedLines, lines_unlines oneLine whole, List.map_map, trimmedLines]
  exact List.map_congr_left fun line _ => trimStart_moved margin line

section

variable {code unit : String}

theorem trimmedLines_layoutBlocks (margin : IsMargin unit.toList) (noReturn : '\r' ∉ code.toList) :
    trimmedLines (layoutBlocks code unit).toList = trimmedLines code.toList := by
  rw [layoutBlocks, String.toList_ofList, trimmedLines_layoutCharacters margin noReturn]

theorem trimmedLines_indent (margin : IsMargin unit.toList) (noReturn : '\r' ∉ code.toList) :
    trimmedLines (indent code unit).toList = trimmedLines code.toList := by
  rw [indent]
  split
  · rfl
  · rw [String.toList_ofList, trimmedLines_indentCharacters margin noReturn]

/-- Texts with the same lines, but for the blanks in front of them, are laid out alike. -/
theorem layoutBlocks_congr {left right : String}
    (same : trimmedLines left.toList = trimmedLines right.toList) (unit : String) :
    layoutBlocks left unit = layoutBlocks right unit := by
  rw [layoutBlocks, layoutBlocks, layoutCharacters, layoutCharacters, same]

/-- In a text without carriage returns, balanced or not, laying out forgets how the text was laid
out or indented before, and laying out again by the same unit changes nothing. There are as many
lines as before, in the same order, and they differ in the blanks in front of them only. -/
theorem layout_forgets_layout (margin : IsMargin unit.toList) (noReturn : '\r' ∉ code.toList) :
    (∀ other, layoutBlocks (layoutBlocks code unit) other = layoutBlocks code other) ∧
    (∀ other, layoutBlocks (indent code unit) other = layoutBlocks code other) ∧
    layoutBlocks (layoutBlocks code unit) unit = layoutBlocks code unit ∧
    (lines (layoutBlocks code unit).toList).length = (lines code.toList).length ∧
    (lines (layoutBlocks code unit).toList).map trimStart = (lines code.toList).map trimStart := by
  have kept := trimmedLines_layoutBlocks margin noReturn
  have again (other : String) :
      layoutBlocks (layoutBlocks code unit) other = layoutBlocks code other :=
    layoutBlocks_congr kept other
  have counted := congrArg List.length kept
  rw [trimmedLines, trimmedLines, List.length_map, List.length_map] at counted
  exact ⟨again, layoutBlocks_congr (trimmedLines_indent margin noReturn), again unit, counted, kept⟩

end

/-- Closes more blocks than it opens, has a line of blanks, and breaks off in its last line. -/
def torn : String := "\x7d\n\tif night \x7b\n   \n lamp();\n  \x7d else \x7b\nsleep() \x7b"

theorem torn_laid_out_again :
    IsMargin "\t".toList ∧ '\r' ∉ torn.toList ∧
      layoutBlocks (layoutBlocks torn "\t") "  " = layoutBlocks torn "  " ∧
      layoutBlocks (indent torn "\t") "  " = layoutBlocks torn "  " ∧
      layoutBlocks torn "  " =
        "\x7d\nif night \x7b\n\n  lamp();\n\x7d else \x7b\n  sleep() \x7b\n" := by
  have margin : IsMargin "\t".toList := by decide
  have noReturn : '\r' ∉ torn.toList := by simp [torn]
  rcases layout_forgets_layout margin noReturn with ⟨again, indented, -⟩
  exact ⟨margin, noReturn, again "  ", indented "  ", by decide⟩

end EventSheet.Text
