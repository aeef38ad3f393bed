import EventSheet.Proofs.Text.Relayout
namespace EventSheet.Text

/-! # Indenting fragments

Nested text is indented one level after the other, and fragments are put together in between.
Indenting goes line by line, so neither the order of the two nor the number of levels that are
added at once makes a difference. -/

variable {first characters : List Char}

theorem moved_moved (outer inner line : List Char) :
    moved outer (moved inner line) = moved (outer ++ inner) line := by
  cases line with
  | nil => rfl
  | cons head tail =>
      have solid : (inner ++ head :: tail).isEmpty = false := by simp
      rw [moved, moved, moved, List.isEmpty_cons, if_neg Bool.false_ne_true,
        if_neg Bool.false_ne_true, solid, if_neg Bool.false_ne_true, List.append_assoc]

theorem indentCharacters_append (unit : List Char) (ends : EndsLine first) (second : List Char) :
    indentCharacters unit (first ++ second) =
      indentCharacters unit first ++ indentCharacters unit second := by
  rw [indentCharacters_eq, lines_append ends, List.map_append, unlines_append,
    ← indentCharacters_eq, ← indentCharacters_eq]

/-- What is indented twice has the lines of the text, moved twice. -/
theorem indentCharacters_indentCharacters (outer : List Char) {inner : List Char}
    (unitOneLine : '\n' ∉ inner) (noReturn : '\r' ∉ characters) :
    indentCharacters outer (indentCharacters inner characters) =
      indentCharacters (outer ++ inner) characters := by
  have oneLine : ∀ line ∈ (lines characters).map (moved inner), '\n' ∉ line :=
    List.forall_mem_map.mpr fun _ isLine =>
      oneLine_moved unitOneLine (oneLine_of_mem_lines isLine)
  have whole : ∀ line ∈ (lines characters).map (moved inner), dropCarriageReturn line = line :=
    List.forall_mem_map.mpr fun _ isLine =>
      dropCarriageReturn_moved inner (whole_of_mem_lines noReturn isLine)
  have twice : moved outer ∘ moved inner = moved (outer ++ inner) :=
    funext fun line => moved_moved outer inner line
  rw [indentCharacters_eq inner, indentCharacters_unlines outer oneLine whole, List.map_map, twice,
    indentCharacters_eq]

theorem indent_empty (code : String) : indent code "" = code := rfl

theorem indent_of_ne {unit : String} (solid : unit ≠ "") (code : String) :
    indent code unit = String.ofList (indentCharacters unit.toList code.toList) :=
  if_neg fun isEmpty => solid (String.isEmpty_iff.mp isEmpty)

/-- Indenting composes, for all texts and units. A text behind one that ends with its last line is
indented as it would be alone, and indenting by one unit and then by another is indenting by both
at once. For the latter the text must hold no carriage return, since a line loses one at each
level, and the inner unit must not break its own lines. -/
theorem indent_composes :
    (∀ unit first second : String, EndsLine first.toList →
      indent (first ++ second) unit = indent first unit ++ indent second unit) ∧
    ∀ outer inner code : String, '\r' ∉ code.toList → '\n' ∉ inner.toList →
      indent (indent code inner) outer = indent code (outer ++ inner) := by
  constructor
  · intro unit first second ends
    by_cases shortcut : unit = ""
    · rw [shortcut, indent_empty, indent_empty, indent_empty]
    · rw [indent_of_ne shortcut, indent_of_ne shortcut, indent_of_ne shortcut,
        String.toList_append, indentCharacters_append unit.toList ends, String.ofList_append]
  · intro outer inner code noReturn oneLine
    by_cases innermost : inner = ""
    · rw [innermost, indent_empty, String.append_empty]
    · by_cases outermost : outer = ""
      · rw [outermost, indent_empty, String.empty_append]
      · have both : outer ++ inner ≠ "" := fun isEmpty =>
          outermost (String.append_eq_empty_iff.mp isEmpty).1
        rw [indent_of_ne innermost, indent_of_ne outermost, indent_of_ne both,
          String.toList_ofList, String.toList_append,
          indentCharacters_indentCharacters outer.toList oneLine noReturn]

/-- A block with a blank line, and a text that breaks off in its last line. -/
theorem torn_indented_in_pieces :
    EndsLine "if night \x7b\n\n".toList ∧ '\r' ∉ torn.toList ∧ '\n' ∉ "\t".toList ∧
      indent ("if night \x7b\n\n" ++ torn) "  " = "  if night \x7b\n\n" ++ indent torn "  " ∧
      indent (indent torn "\t") "  " = indent torn "  \t" := by
  have ends : EndsLine "if night \x7b\n\n".toList := .inr ⟨"if night \x7b\n".toList, by decide⟩
  have noReturn : '\r' ∉ torn.toList := by simp [torn]
  have oneLine : '\n' ∉ "\t".toList := by decide
  have pieces := indent_composes.1 "  " "if night \x7b\n\n" torn ends
  have first : indent "if night \x7b\n\n" "  " = "  if night \x7b\n\n" := by decide
  rw [first] at pieces
  exact ⟨ends, noReturn, oneLine, pieces, indent_composes.2 "  " "\t" torn noReturn oneLine⟩

end EventSheet.Text
