import EventSheet.Kind.Builtin
import Mathlib.Algebra.Order.BigOperators.Group.List
import Mathlib.Algebra.Order.Floor.Div
namespace EventSheet

/-! # Wider is never taller

What is rendered is counted in lines first, without a limit. A line of text wraps to no more lines
when more glyphs fit on one, and from there on it is sums and maxima. The heights told are those of
the lines as long as so many fit in 32 bits. -/

namespace Rendering

/-! ## Lines -/

def listLines (list : InstructionList) (width : UInt32) : Nat :=
  max (list.map fun instruction => textLines instruction.label width).sum 1

def columnsLines (conditions actions : InstructionList) (width : UInt32) : Nat :=
  max (listLines conditions (width / 2)) (listLines actions (width / 2))

end Rendering

/-- The lines of a rendered event, which has nothing but its padding besides. -/
def Kind.Builtin.lines (event : Kind.Builtin) (width : UInt32) : Nat :=
  match event with
  | .standard event => Rendering.columnsLines event.conditions event.actions width
  | .comment event => Rendering.textLines event.text width
  | .branch event =>
      (event.arms.map fun arm => Rendering.columnsLines arm.conditions arm.actions width).sum +
        Rendering.listLines event.otherwise (width / 2)
  | .repetition event => 1 + Rendering.columnsLines event.conditions event.actions width
  | .link event => Rendering.textLines ("Include events of " ++ event.target) width

namespace Rendering

theorem wrappedLines_le {few many : Nat} (positive : 0 < few) (more : few ≤ many)
    (line : List Char) : wrappedLines many line ≤ wrappedLines few line := by
  apply max_le_max_right
  rw [← Nat.ceilDiv_eq_add_pred_div, ← Nat.ceilDiv_eq_add_pred_div,
    ceilDiv_le_iff_le_mul (positive.trans_le more)]
  calc line.length
      ≤ few * (line.length ⌈/⌉ few) := (ceilDiv_le_iff_le_mul positive).mp le_rfl
    _ ≤ many * (line.length ⌈/⌉ few) := Nat.mul_le_mul_right _ more

theorem wrappedTotal_le {few many : Nat} (positive : 0 < few) (more : few ≤ many) :
    ∀ lines : List (List Char), wrappedTotal many lines ≤ wrappedTotal few lines
  | [] => Nat.le_refl _
  | head :: tail =>
      Nat.add_le_add (wrappedLines_le positive more head) (wrappedTotal_le positive more tail)

section

variable {narrow wide : UInt32} (wider : narrow ≤ wide)

include wider

theorem div_le_div (divisor : UInt32) : (narrow / divisor).toNat ≤ (wide / divisor).toNat := by
  rw [UInt32.toNat_div, UInt32.toNat_div]
  exact Nat.div_le_div_right (UInt32.le_iff_toNat_le.mp wider)

theorem textLines_le (text : String) : textLines text wide ≤ textLines text narrow := by
  have positive : 0 < charactersPerLine narrow := Nat.le_max_right _ _
  have more : charactersPerLine narrow ≤ charactersPerLine wide :=
    max_le_max_right 1 (div_le_div wider characterWidth)
  exact max_le_max_right 1 (wrappedTotal_le positive more _)

theorem listLines_le (list : InstructionList) : listLines list wide ≤ listLines list narrow := by
  apply max_le_max_right
  apply List.sum_le_sum
  exact fun instruction _ => textLines_le wider instruction.label

theorem columnsLines_le (conditions actions : InstructionList) :
    columnsLines conditions actions wide ≤ columnsLines conditions actions narrow := by
  have half : narrow / 2 ≤ wide / 2 := UInt32.le_iff_toNat_le.mpr (div_le_div wider 2)
  exact max_le_max (listLines_le half conditions) (listLines_le half actions)

theorem lines_le (event : Kind.Builtin) : event.lines wide ≤ event.lines narrow := by
  cases event with
  | standard event => exact columnsLines_le wider event.conditions event.actions
  | comment event => exact textLines_le wider event.text
  | branch event =>
      have half : narrow / 2 ≤ wide / 2 := UInt32.le_iff_toNat_le.mpr (div_le_div wider 2)
      apply Nat.add_le_add _ (listLines_le half event.otherwise)
      apply List.sum_le_sum
      exact fun arm _ => columnsLines_le wider arm.conditions arm.actions
  | repetition event =>
      exact Nat.add_le_add_left (columnsLines_le wider event.conditions event.actions) 1
  | link event => exact textLines_le wider _

end

/-! ## Heights -/

/-- The height of so many lines, without a limit. -/
def linesHeight (lines : Nat) : Nat := lines * lineHeight.toNat

theorem linesHeight_le {few many : Nat} (more : few ≤ many) : linesHeight few ≤ linesHeight many :=
  Nat.mul_le_mul_right _ more

/-- The height is that of so many lines as long as so many fit. -/
def TellsLines (height : UInt32) (lines : Nat) : Prop :=
  linesHeight lines < UInt32.size → height.toNat = linesHeight lines

theorem tellsLines_textHeight (text : String) (width : UInt32) :
    TellsLines (textHeight text width) (textLines text width) := by
  intro fits
  have few : textLines text width < UInt32.size :=
    Nat.lt_of_le_of_lt (Nat.le_mul_of_pos_right _ (by decide)) fits
  rw [textHeight, UInt32.toNat_mul, UInt32.toNat_ofNat_of_lt' few]
  exact Nat.mod_eq_of_lt fits

namespace TellsLines

variable {left right : UInt32} {leftLines rightLines : Nat}

theorem add (leftTells : TellsLines left leftLines) (rightTells : TellsLines right rightLines) :
    TellsLines (left + right) (leftLines + rightLines) := by
  intro fits
  have leftExact := leftTells
    (Nat.lt_of_le_of_lt (linesHeight_le (Nat.le_add_right leftLines rightLines)) fits)
  have rightExact := rightTells
    (Nat.lt_of_le_of_lt (linesHeight_le (Nat.le_add_left rightLines leftLines)) fits)
  rw [linesHeight, Nat.add_mul] at fits ⊢
  rw [UInt32.toNat_add, leftExact, rightExact]
  exact Nat.mod_eq_of_lt fits

theorem max (leftTells : TellsLines left leftLines) (rightTells : TellsLines right rightLines) :
    TellsLines (Max.max left right) (Max.max leftLines rightLines) := by
  intro fits
  have leftExact := leftTells (Nat.lt_of_le_of_lt (linesHeight_le (Nat.le_max_left _ _)) fits)
  have rightExact := rightTells (Nat.lt_of_le_of_lt (linesHeight_le (Nat.le_max_right _ _)) fits)
  rw [linesHeight, ← Nat.mul_max_mul_right, ← linesHeight, ← linesHeight, ← leftExact, ← rightExact]
  change (if left ≤ right then right else left).toNat = _
  rw [Nat.max_def, apply_ite UInt32.toNat]
  rfl

theorem stacked {α : Type} {height : α → UInt32} {lines : α → Nat}
    (tells : ∀ item, TellsLines (height item) (lines item)) (items : List α) :
    TellsLines (Rendering.stacked (items.map height)) (items.map lines).sum := by
  induction items with
  | nil => exact fun _ => rfl
  | cons head tail induction =>
      rw [List.map_cons, List.map_cons, List.sum_cons]
      exact (tells head).add induction

end TellsLines

theorem tellsLines_one : TellsLines lineHeight 1 := fun _ => rfl

theorem tellsLines_listHeight (list : InstructionList) (width : UInt32) :
    TellsLines (listHeight list width) (listLines list width) :=
  (TellsLines.stacked (fun _ => tellsLines_textHeight _ width) list).max tellsLines_one

theorem tellsLines_columnsHeight (conditions actions : InstructionList) (width : UInt32) :
    TellsLines (columnsHeight conditions actions width) (columnsLines conditions actions width) :=
  (tellsLines_listHeight conditions _).max (tellsLines_listHeight actions _)

end Rendering

namespace Kind.Builtin

open Rendering

theorem tellsLines_renderedHeight (event : Kind.Builtin) (width : UInt32) :
    ∃ content, TellsLines content (event.lines width) ∧
      event.renderedHeight width = content + 2 * eventPadding := by
  cases event with
  | standard event => exact ⟨_, tellsLines_columnsHeight _ _ _, rfl⟩
  | comment event => exact ⟨_, tellsLines_textHeight _ _, rfl⟩
  | branch event =>
      have arms := TellsLines.stacked (fun arm : BranchArm =>
        tellsLines_columnsHeight arm.conditions arm.actions width) event.arms
      exact ⟨_, arms.add (tellsLines_listHeight event.otherwise _), rfl⟩
  | repetition event => exact ⟨_, tellsLines_one.add (tellsLines_columnsHeight _ _ _), rfl⟩
  | link event => exact ⟨_, tellsLines_textHeight _ _, rfl⟩

/-- The height of the rendered event, without a limit. -/
def fullHeight (event : Kind.Builtin) (width : UInt32) : Nat :=
  linesHeight (event.lines width) + (2 * eventPadding).toNat

theorem toNat_renderedHeight {event : Kind.Builtin} {width : UInt32}
    (fits : event.fullHeight width < UInt32.size) :
    (event.renderedHeight width).toNat = event.fullHeight width := by
  rcases event.tellsLines_renderedHeight width with ⟨content, tells, height⟩
  rw [height, UInt32.toNat_add, tells (Nat.lt_of_le_of_lt (Nat.le_add_right _ _) fits)]
  exact Nat.mod_eq_of_lt fits

end Kind.Builtin

namespace Rendering

/-- At least one line, and whole lines only. -/
def IsOfLines (height : UInt32) : Prop :=
  lineHeight ≤ height ∧ lineHeight.toNat ∣ height.toNat

namespace TellsLines

variable {height taller : UInt32} {lines more : Nat}

theorem le (tells : TellsLines height lines) (othersTell : TellsLines taller more)
    (fewer : lines ≤ more) (fits : linesHeight more < UInt32.size) : height ≤ taller := by
  have fewerFit := Nat.lt_of_le_of_lt (linesHeight_le fewer) fits
  rw [UInt32.le_iff_toNat_le, tells fewerFit, othersTell fits]
  exact linesHeight_le fewer

theorem isOfLines (tells : TellsLines height lines) (positive : 0 < lines)
    (fits : linesHeight lines < UInt32.size) : IsOfLines height := by
  refine ⟨tellsLines_one.le tells positive fits, ?_⟩
  rw [tells fits]
  exact Nat.dvd_mul_left _ _

end TellsLines

/-- On a wider screen no event, text or list of instructions is taller, as long as what it takes on
the narrower one fits in 32 bits. Texts and lists take one line or more, and whole lines only. -/
theorem wider_never_taller {narrow wide : UInt32} (wider : narrow ≤ wide) :
    (∀ event : Kind.Builtin, event.fullHeight narrow < UInt32.size →
      event.renderedHeight wide ≤ event.renderedHeight narrow) ∧
    (∀ text, linesHeight (textLines text narrow) < UInt32.size →
      textHeight text wide ≤ textHeight text narrow) ∧
    (∀ list, linesHeight (listLines list narrow) < UInt32.size →
      listHeight list wide ≤ listHeight list narrow) ∧
    (∀ text width, linesHeight (textLines text width) < UInt32.size →
      IsOfLines (textHeight text width)) ∧
    ∀ list width, linesHeight (listLines list width) < UInt32.size →
      IsOfLines (listHeight list width) := by
  refine ⟨?_, ?_, ?_, ?_, ?_⟩
  · intro event fits
    have less : event.fullHeight wide ≤ event.fullHeight narrow :=
      Nat.add_le_add_right (linesHeight_le (lines_le wider event)) _
    rw [UInt32.le_iff_toNat_le, Kind.Builtin.toNat_renderedHeight fits,
      Kind.Builtin.toNat_renderedHeight (Nat.lt_of_le_of_lt less fits)]
    exact less
  · exact fun text => (tellsLines_textHeight text wide).le (tellsLines_textHeight text narrow)
      (textLines_le wider text)
  · exact fun list => (tellsLines_listHeight list wide).le (tellsLines_listHeight list narrow)
      (listLines_le wider list)
  · exact fun text width => (tellsLines_textHeight text width).isOfLines (Nat.le_max_right _ _)
  · exact fun list width => (tellsLines_listHeight list width).isOfLines (Nat.le_max_right _ _)

def doorBranch : Kind.Branch where
  arms := [{ conditions := [{ name := "door_is_open" }]
             actions := [{ name := "enter", parameters := [⟨"hall"⟩] }] }]
  otherwise := [{ name := "knock" }]

/-- A branch, a sign in front of it and what is done there, on no width at all and on a screen. -/
theorem wider_never_taller_doorBranch :
    (0 : UInt32) ≤ 200 ∧
      (Kind.Builtin.branch doorBranch).fullHeight 0 = 390 ∧
      (Kind.Builtin.branch doorBranch).renderedHeight 200 ≤
        (Kind.Builtin.branch doorBranch).renderedHeight 0 ∧
      linesHeight (textLines "Please\nknock" 0) = 198 ∧
      textHeight "Please\nknock" 200 ≤ textHeight "Please\nknock" 0 ∧
      IsOfLines (textHeight "Please\nknock" 0) ∧
      linesHeight (listLines doorBranch.otherwise 0) = 126 ∧
      listHeight doorBranch.otherwise 200 ≤ listHeight doorBranch.otherwise 0 ∧
      IsOfLines (listHeight doorBranch.otherwise 0) := by
  have wider : (0 : UInt32) ≤ 200 := by decide
  have event : (Kind.Builtin.branch doorBranch).fullHeight 0 = 390 := by decide
  have text : linesHeight (textLines "Please\nknock" 0) = 198 := by decide
  have list : linesHeight (listLines doorBranch.otherwise 0) = 126 := by decide
  rcases wider_never_taller wider with ⟨events, texts, lists, textsWhole, listsWhole⟩
  exact ⟨wider, event, events _ (event ▸ by decide), text, texts _ (text ▸ by decide),
    textsWhole _ _ (text ▸ by decide), list, lists _ (list ▸ by decide),
    listsWhole _ _ (list ▸ by decide)⟩

end Rendering

end EventSheet
