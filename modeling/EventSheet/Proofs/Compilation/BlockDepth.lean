import EventSheet.Proofs.Compilation.Lines
namespace EventSheet.Text

/-! # Depths and indentation

Laying out reads the depth of a line off the braces in front of it, starting at the margin. As long
as no line closes a block that none has opened, laying out lines one level deeper is laying them
out and indenting what comes out. -/

/-! ## The depth behind lines -/

/-- The depth behind lines of which the first is found at a depth; nothing when a line closes a
block that none has opened. -/
def depthBehind? (depth : Nat) : List (List Char) → Option Nat
  | [] => some depth
  | line :: rest =>
      if closesBlock line = true ∧ depth = 0 then none
      else depthBehind? (depthAfter (lineDepth depth line) line) rest

example : depthBehind? 0 ["if night \x7b".toList, "\x7d else \x7b".toList, "\x7d".toList] =
    some 0 := by
  decide

example : depthBehind? 0 ["\x7d".toList, "if night \x7b".toList] = none := by decide

variable {unit line : List Char} {depth between behind : Nat}
  {first second lines : List (List Char)}

theorem depthBehind?_cons (found : depthBehind? depth (line :: lines) = some behind) :
    ¬ (closesBlock line = true ∧ depth = 0) ∧
      depthBehind? (depthAfter (lineDepth depth line) line) lines = some behind := by
  rw [depthBehind?] at found
  split at found
  · cases found
  · next closes => exact ⟨closes, found⟩

theorem depthBehind?_append (isFirst : depthBehind? depth first = some between)
    (isSecond : depthBehind? between second = some behind) :
    depthBehind? depth (first ++ second) = some behind := by
  induction first generalizing depth with
  | nil =>
      cases isFirst
      exact isSecond
  | cons head tail induction =>
      rcases depthBehind?_cons isFirst with ⟨opened, found⟩
      rw [List.cons_append, depthBehind?, if_neg opened]
      exact induction found

theorem indented_append (isFirst : depthBehind? depth first = some between) :
    indented unit depth (first ++ second) =
      indented unit depth first ++ indented unit between second := by
  induction first generalizing depth with
  | nil =>
      cases isFirst
      rfl
  | cons head tail induction =>
      rw [List.cons_append, indented, induction (depthBehind?_cons isFirst).2]
      rfl

/-! ## One level deeper -/

theorem lineDepth_succ (opened : ¬ (closesBlock line = true ∧ depth = 0)) :
    lineDepth (depth + 1) line = lineDepth depth line + 1 := by
  rw [lineDepth, lineDepth]
  split
  · next closes =>
      have deep : depth ≠ 0 := fun margin => opened ⟨closes, margin⟩
      omega
  · rfl

theorem depthAfter_succ (depth : Nat) (line : List Char) :
    depthAfter (depth + 1) line = depthAfter depth line + 1 := by
  rw [depthAfter, depthAfter]
  split <;> rfl

theorem depthBehind?_succ (found : depthBehind? depth lines = some behind) :
    depthBehind? (depth + 1) lines = some (behind + 1) := by
  induction lines generalizing depth with
  | nil =>
      cases found
      rfl
  | cons head tail induction =>
      rcases depthBehind?_cons found with ⟨opened, later⟩
      rw [depthBehind?, if_neg (fun closes => Nat.succ_ne_zero depth closes.2),
        lineDepth_succ opened, depthAfter_succ]
      exact induction later

/-- A line moved to the right; an empty line stays empty. -/
def moved (unit line : List Char) : List Char := if line.isEmpty then [] else unit ++ line

theorem moved_indentation (unit : List Char) (depth : Nat) (line : List Char) :
    moved unit (if line.isEmpty then [] else (List.replicate depth unit).flatten ++ line) =
      if line.isEmpty then [] else (List.replicate (depth + 1) unit).flatten ++ line := by
  cases line with
  | nil => rfl
  | cons head tail =>
      rw [List.isEmpty_cons, if_neg Bool.false_ne_true, if_neg Bool.false_ne_true, moved, if_neg,
        List.replicate_succ, List.flatten_cons, List.append_assoc]
      simp

theorem indented_succ (found : depthBehind? depth lines = some behind) :
    indented unit (depth + 1) lines = (indented unit depth lines).map (moved unit) := by
  induction lines generalizing depth with
  | nil => rfl
  | cons head tail induction =>
      rcases depthBehind?_cons found with ⟨opened, later⟩
      rw [indented, indented, List.map_cons, moved_indentation, lineDepth_succ opened,
        depthAfter_succ, induction later]

/-! ## Indenting lines -/

theorem indentCharacters_eq (unit characters : List Char) :
    indentCharacters unit characters = unlines ((Text.lines characters).map (moved unit)) := by
  rw [indentCharacters, unlines, List.flatMap_map]
  rfl

theorem indentCharacters_unlines (unit : List Char) {lines : List (List Char)}
    (oneLine : ∀ line ∈ lines, '\n' ∉ line)
    (whole : ∀ line ∈ lines, dropCarriageReturn line = line) :
    indentCharacters unit (unlines lines) = unlines (lines.map (moved unit)) := by
  rw [indentCharacters_eq, lines_unlines oneLine whole]

theorem unlines_map_moved_nil (lines : List (List Char)) :
    unlines (lines.map (moved [])) = unlines lines := by
  have same : moved [] = id := by
    funext line
    cases line <;> rfl
  rw [same, List.map_id]

theorem toList_indent {code unit : String} {lines : List (List Char)}
    (oneLine : ∀ line ∈ lines, '\n' ∉ line)
    (whole : ∀ line ∈ lines, dropCarriageReturn line = line)
    (split : code.toList = unlines lines) :
    (indent code unit).toList = unlines (lines.map (moved unit.toList)) := by
  rw [indent]
  split
  · next empty =>
      rw [String.isEmpty_iff] at empty
      rw [empty, split, String.toList_empty, unlines_map_moved_nil]
  · rw [String.toList_ofList, split, indentCharacters_unlines _ oneLine whole]

theorem dropCarriageReturn_append (front : List Char) {line : List Char} (solid : line ≠ [])
    (whole : dropCarriageReturn line = line) :
    dropCarriageReturn (front ++ line) = front ++ line := by
  have last : line.getLast? ≠ some '\r' := by
    intro isReturn
    rw [dropCarriageReturn, if_pos isReturn] at whole
    have shorter := congrArg List.length whole
    rw [List.length_dropLast] at shorter
    have longer := List.length_pos_of_ne_nil solid
    omega
  rw [dropCarriageReturn, List.getLast?_append_of_ne_nil _ solid, if_neg last]

theorem whole_of_mem_indented (whole : ∀ line ∈ lines, dropCarriageReturn line = line) :
    ∀ line ∈ indented unit depth lines, dropCarriageReturn line = line := by
  induction lines generalizing depth with
  | nil => exact List.forall_mem_nil _
  | cons head tail induction =>
      rw [List.forall_mem_cons] at whole
      rw [indented, List.forall_mem_cons]
      refine ⟨?_, induction whole.2⟩
      cases head with
      | nil => rfl
      | cons _ _ =>
          rw [List.isEmpty_cons, if_neg Bool.false_ne_true]
          exact dropCarriageReturn_append _ (List.cons_ne_nil _ _) whole.1

/-! ## Flat lines and nested text -/

/-- Whether a line opens a block is said by its end. -/
theorem opensBlock_append (front : String) {ending : String} (solid : ending.toList ≠ []) :
    opensBlock (front ++ ending).toList = opensBlock ending.toList := by
  rw [opensBlock, String.toList_append, List.getLast?_append_of_ne_nil _ solid, opensBlock]

/-- Flat lines are laid out as the nested text; they lead from one depth to another without closing
a block that none has opened. -/
structure Lays (unit : String) (start final : Nat) (flat : List (List Char)) (nested : String) :
    Prop where
  stays : ∀ line ∈ flat, Stays line
  depth : depthBehind? start flat = some final
  split : nested.toList = unlines (indented unit.toList start flat)

namespace Lays

variable {unit nested behind : String} {start final last : Nat} {flat rest : List (List Char)}

theorem nil (unit : String) (depth : Nat) : Lays unit depth depth [] "" :=
  ⟨List.forall_mem_nil _, rfl, rfl⟩

theorem append (isFirst : Lays unit start final flat nested)
    (isSecond : Lays unit final last rest behind) :
    Lays unit start last (flat ++ rest) (nested ++ behind) where
  stays := List.forall_mem_append.mpr ⟨isFirst.stays, isSecond.stays⟩
  depth := depthBehind?_append isFirst.depth isSecond.depth
  split := by
    rw [indented_append isFirst.depth, unlines_append, String.toList_append, isFirst.split,
      isSecond.split]

/-- A line is laid out at the margin when it is found where it closes nothing but its block. -/
theorem single {line : List Char} (stays : Stays line) (split : nested.toList = unlines [line]) :
    Lays unit (closesBlock line).toNat (opensBlock line).toNat [line] nested where
  stays := List.forall_mem_singleton.mpr stays
  depth := by
    cases closes : closesBlock line <;> cases opens : opensBlock line <;>
      simp [depthBehind?, lineDepth, depthAfter, closes, opens]
  split := by
    have margin : lineDepth (closesBlock line).toNat line = 0 := by
      cases closes : closesBlock line <;> simp [lineDepth, closes]
    rw [split, indented, margin]
    cases line <;> rfl

/-- What is indented is laid out one level deeper. -/
theorem indent (oneLine : '\n' ∉ unit.toList) (lays : Lays unit start final flat nested) :
    Lays unit (start + 1) (final + 1) flat (Text.indent nested unit) where
  stays := lays.stays
  depth := depthBehind?_succ lays.depth
  split := by
    rw [indented_succ lays.depth]
    apply toList_indent _ _ lays.split
    · exact oneLine_of_mem_indented oneLine (fun line isLine => (lays.stays line isLine).oneLine) _
    · exact whole_of_mem_indented fun line isLine => (lays.stays line isLine).whole

/-- Flat text is laid out as the nested one. -/
theorem layoutBlocks_eq (lays : Lays unit 0 final flat nested) {code : String}
    (split : code.toList = unlines flat) : layoutBlocks code unit = nested := by
  rw [layoutBlocks, layoutCharacters_eq, split, trimmedLines_unlines_of_stays lays.stays,
    ← lays.split, String.ofList_toList]

end Lays

end EventSheet.Text
