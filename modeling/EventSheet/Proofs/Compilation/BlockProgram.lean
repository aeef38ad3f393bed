import EventSheet.Instruction
namespace EventSheet.BlockProgram

/-! # Block programs

The programs event sheets compile to: bindings of flags and counters, loops,
conditionals, bare blocks and calls. The text of a program is flat, one line for
each binding, call, header and closing brace. -/

/-- What a flag is bound to a conjunction of. -/
inductive Operand where
  /-- A call, with texts for its first arguments and operands for the others. -/
  | call (name : String) (arguments : List String) (operands : List Operand)
  | negation (operand : Operand)
  | never

mutual
inductive Statement where
  | bindFlag (flag : String) (operands : List Operand)
  | bindCounter (counter : String) (count : String)
  | evaluate (operand : Operand)
  | block (body : List Statement)
  | loop (counter : String) (body : List Statement)
  | conditional (flag : String) (body : List Statement) (alternative : Alternative)

/-- What comes behind the body of a conditional. -/
inductive Alternative where
  | done
  | otherwise (body : List Statement)
  | elseIf (flag : String) (body : List Statement) (alternative : Alternative)
end

end BlockProgram

/-- The statements of a block, in order. -/
abbrev BlockProgram := List BlockProgram.Statement

namespace BlockProgram

/-! ## Text -/

mutual
def Operand.print : Operand → String
  | .call name arguments operands =>
      name ++ "(" ++ ", ".intercalate (arguments ++ Operand.printAll operands) ++ ")"
  | .negation operand => "!" ++ operand.print
  | .never => "false"

def Operand.printAll : List Operand → List String
  | [] => []
  | head :: tail => head.print :: Operand.printAll tail
end

/-- The empty conjunction always holds. -/
def printConjunction (operands : List Operand) : String :=
  if operands.isEmpty then "true" else " && ".intercalate (Operand.printAll operands)

mutual
def Statement.print : Statement → String
  | .bindFlag flag operands => "let " ++ flag ++ " = " ++ printConjunction operands ++ ";\n"
  | .bindCounter counter count => "let " ++ counter ++ " = (" ++ count ++ ") as usize;\n"
  | .evaluate operand => operand.print ++ ";\n"
  | .block body => "\x7b\n" ++ print body ++ "\x7d\n"
  | .loop counter body =>
      "for _ in 0.." ++ counter ++ " \x7b\n" ++ print body ++ "\x7d\n"
  | .conditional flag body alternative =>
      "if " ++ flag ++ " \x7b\n" ++ print body ++ alternative.print

def Alternative.print : Alternative → String
  | .done => "\x7d\n"
  | .otherwise body => "\x7d else \x7b\n" ++ print body ++ "\x7d\n"
  | .elseIf flag body alternative =>
      "\x7d else if " ++ flag ++ " \x7b\n" ++ print body ++ alternative.print

def print : List Statement → String
  | [] => ""
  | head :: tail => head.print ++ print tail
end

example : print
    [.bindFlag "night" [.call "isNight" [] []],
      .conditional "night" [.evaluate (.call "light" ["lamp"] [])] .done] =
    "let night = isNight();\nif night \x7b\nlight(lamp);\n\x7d\n" := by
  decide

theorem Operand.printAll_eq_map (operands : List Operand) :
    printAll operands = operands.map print := by
  induction operands with
  | nil => rfl
  | cons head tail induction => rw [printAll, induction, List.map_cons]

/-! ## Well-formed text

Names are identifiers and what was typed stays on its line, so every line of the text is
the header, the binding or the call that was printed there. -/

/-- A character of an identifier. Characters outside ASCII are letters unless they are
blank. -/
def isWordCharacter (character : Char) : Bool :=
  character.isAlphanum || character = '_' ||
    (127 < character.toNat && !Text.isBlank character)

structure IsIdentifier (name : String) : Prop where
  word : name.toList.all isWordCharacter = true
  start : ∃ first rest, name.toList = first :: rest ∧ first.isDigit = false

def IsOneLine (text : String) : Prop := '\n' ∉ text.toList

mutual
def Operand.WellFormed : Operand → Prop
  | .call name arguments operands =>
      IsIdentifier name ∧ (∀ argument ∈ arguments, IsOneLine argument) ∧
        Operand.AllWellFormed operands
  | .negation operand => operand.WellFormed
  | .never => True

def Operand.AllWellFormed : List Operand → Prop
  | [] => True
  | head :: tail => head.WellFormed ∧ Operand.AllWellFormed tail
end

mutual
def Statement.WellFormed : Statement → Prop
  | .bindFlag flag operands => IsIdentifier flag ∧ Operand.AllWellFormed operands
  | .bindCounter counter count => IsIdentifier counter ∧ IsOneLine count
  | .evaluate operand => operand.WellFormed
  | .block body => WellFormed body
  | .loop counter body => IsIdentifier counter ∧ WellFormed body
  | .conditional flag body alternative =>
      IsIdentifier flag ∧ WellFormed body ∧ alternative.WellFormed

def Alternative.WellFormed : Alternative → Prop
  | .done => True
  | .otherwise body => WellFormed body
  | .elseIf flag body alternative =>
      IsIdentifier flag ∧ WellFormed body ∧ alternative.WellFormed

def WellFormed : List Statement → Prop
  | [] => True
  | head :: tail => head.WellFormed ∧ WellFormed tail
end

end BlockProgram

end EventSheet
