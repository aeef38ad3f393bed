import EventSheet.Instruction
import EventSheet.Text.Lines
namespace EventSheet.Rendering

/-! Heights of rendered text. The editor lays events out before drawing them;
heights are 32-bit and count whole lines of text. -/

def lineHeight : UInt32 := 18
/-- The average advance of a glyph. -/
def characterWidth : UInt32 := 7
/-- Vertical padding, above and below an event. -/
def eventPadding : UInt32 := 6

/-- Glyphs on a line of a width, at least one. -/
def charactersPerLine (width : UInt32) : Nat := max (width / characterWidth).toNat 1

/-- Lines one line of text wraps to, at least one. -/
def wrappedLines (perLine : Nat) (line : List Char) : Nat :=
  max ((line.length + perLine - 1) / perLine) 1

def wrappedTotal (perLine : Nat) : List (List Char) → Nat
  | [] => 0
  | head :: tail => wrappedLines perLine head + wrappedTotal perLine tail

/-- Lines a text takes when it is wrapped, at least one. -/
def textLines (text : String) (width : UInt32) : Nat :=
  max (wrappedTotal (charactersPerLine width) (Text.lines text.toList)) 1

/-- Height of a text wrapped to a width. -/
def textHeight (text : String) (width : UInt32) : UInt32 :=
  UInt32.ofNat (textLines text width) * lineHeight

/-- Heights put on top of one another. -/
def stacked : List UInt32 → UInt32
  | [] => 0
  | head :: tail => head + stacked tail

/-- Height of an instruction list: one wrapped label per instruction, and never
less than a line. -/
def listHeight (list : InstructionList) (width : UInt32) : UInt32 :=
  max (stacked (list.map fun instruction => textHeight instruction.label width)) lineHeight

/-- Conditions and actions side by side, each in half the width. -/
def columnsHeight (conditions actions : InstructionList) (width : UInt32) : UInt32 :=
  max (listHeight conditions (width / 2)) (listHeight actions (width / 2))

end EventSheet.Rendering
