import EventSheet.Proofs.Compilation.Lines
import EventSheet.Proofs.Compilation.Text
namespace EventSheet

/-! # The lines of a block program

Every binding, call, header and closing brace is printed on a line of its own. The lines of a
generated program stand in its source behind those of the header, at their depths. -/

open Codegen

namespace BlockProgram

mutual
def Statement.lines : Statement → List (List Char)
  | .bindFlag flag operands =>
      [("let " ++ flag ++ " = " ++ printConjunction operands ++ ";").toList]
  | .bindCounter counter count => [("let " ++ counter ++ " = (" ++ count ++ ") as usize;").toList]
  | .evaluate operand => [(operand.print ++ ";").toList]
  | .block body => "\x7b".toList :: lines body ++ ["\x7d".toList]
  | .loop counter body =>
      ("for _ in 0.." ++ counter ++ " \x7b").toList :: lines body ++ ["\x7d".toList]
  | .conditional flag body alternative =>
      ("if " ++ flag ++ " \x7b").toList :: lines body ++ alternative.lines

def Alternative.lines : Alternative → List (List Char)
  | .done => ["\x7d".toList]
  | .otherwise body => "\x7d else \x7b".toList :: lines body ++ ["\x7d".toList]
  | .elseIf flag body alternative =>
      ("\x7d else if " ++ flag ++ " \x7b").toList :: lines body ++ alternative.lines

/-- The lines of the text of a program, without their newlines. -/
def lines : List Statement → List (List Char)
  | [] => []
  | head :: tail => head.lines ++ lines tail
end

theorem lines_append (first second : BlockProgram) :
    lines (first ++ second) = lines first ++ lines second := by
  induction first with
  | nil => rfl
  | cons head tail induction =>
      rw [List.cons_append, lines, lines, induction, List.append_assoc]

mutual
theorem Statement.toList_print : ∀ statement : Statement,
    statement.print.toList = Text.unlines statement.lines
  | .bindFlag flag operands => by
      simp [Statement.print, Statement.lines]
  | .bindCounter counter count => by
      simp [Statement.print, Statement.lines]
  | .evaluate operand => by
      simp [Statement.print, Statement.lines]
  | .block body => by
      simp [Statement.print, Statement.lines, toList_print body]
  | .loop counter body => by
      simp [Statement.print, Statement.lines, toList_print body]
  | .conditional flag body alternative => by
      simp [Statement.print, Statement.lines, toList_print body, alternative.toList_print]

theorem Alternative.toList_print : ∀ alternative : Alternative,
    alternative.print.toList = Text.unlines alternative.lines
  | .done => rfl
  | .otherwise body => by
      simp [Alternative.print, Alternative.lines, toList_print body]
  | .elseIf flag body alternative => by
      simp [Alternative.print, Alternative.lines, toList_print body, alternative.toList_print]

/-- A program is printed line by line. -/
theorem toList_print : ∀ program : List Statement,
    (print program).toList = Text.unlines (lines program)
  | [] => rfl
  | head :: tail => by
      rw [print, lines, String.toList_append, head.toList_print, toList_print tail,
        Text.unlines_append]
end

end BlockProgram

/-! ## The source -/

theorem Settings.toList_indentUnit (settings : Settings) :
    settings.indentUnit.toList = List.replicate settings.output.indentWidth.toNat ' ' :=
  String.toList_ofList

theorem Settings.isBlank_indentUnit (settings : Settings) :
    ∀ character ∈ settings.indentUnit.toList, Text.isBlank character = true := by
  intro character isCharacter
  rw [toList_indentUnit] at isCharacter
  rw [List.eq_of_mem_replicate isCharacter]
  decide

theorem Settings.oneLine_indentUnit (settings : Settings) :
    '\n' ∉ settings.indentUnit.toList := by
  intro isNewline
  rw [toList_indentUnit] at isNewline
  cases List.eq_of_mem_replicate isNewline

namespace Codegen.Program

/-- What stands in front of the body of the generated function. -/
def head (output : OutputSettings) : String :=
  output.header ++ "\n\npub fn " ++ output.entryPoint ++ "() \x7b\n"

theorem trimmedLines_frame (output : OutputSettings) {body : String}
    (ends : Text.EndsLine body.toList) :
    Text.trimmedLines (frame output body).toList =
      Text.trimmedLines (head output).toList ++ Text.trimmedLines body.toList ++
        ["\x7d".toList] := by
  have headEnds : Text.EndsLine (head output).toList := by
    refine .inr ⟨(output.header ++ "\n\npub fn " ++ output.entryPoint ++ "() \x7b").toList, ?_⟩
    simp [head, Text.newline]
  have brace : Text.trimmedLines "\x7d\n".toList = ["\x7d".toList] := rfl
  have parts : (frame output body).toList =
      (head output).toList ++ body.toList ++ "\x7d\n".toList := by
    rw [frame, ← head, String.toList_append, String.toList_append]
  rw [parts, Text.trimmedLines_append (headEnds.append ends), Text.trimmedLines_append headEnds,
    brace]

variable {settings : Settings} {population : Population} {forest : Forest Kind.Builtin}
  {state : ProgramState}

theorem generate_eq_layout :
    (generate settings population forest state).1 =
      Text.layoutBlocks (frame settings.output (BlockProgram.print
        (Forest.program settings population forest))) settings.indentUnit := by
  rw [← Forest.generate_eq_print settings population forest state]
  rfl

theorem trimmedLines_source :
    Text.trimmedLines (frame settings.output (BlockProgram.print
        (Forest.program settings population forest))).toList =
      Text.trimmedLines (head settings.output).toList ++
        Text.trimmedLines (Text.unlines
          (BlockProgram.lines (Forest.program settings population forest))) ++
        ["\x7d".toList] := by
  rw [← BlockProgram.toList_print]
  apply trimmedLines_frame
  rw [BlockProgram.toList_print]
  exact Text.endsLine_unlines _

/-- The lines of a generated source as they are laid out. -/
theorem pieces_generate :
    Text.pieces (generate settings population forest state).1.toList =
      Text.indented settings.indentUnit.toList 0
        (Text.trimmedLines (head settings.output).toList ++
          Text.trimmedLines (Text.unlines
            (BlockProgram.lines (Forest.program settings population forest))) ++
          ["\x7d".toList]) ++ [[]] := by
  rw [generate_eq_layout, Text.layoutBlocks, String.toList_ofList,
    Text.pieces_layoutCharacters settings.oneLine_indentUnit, trimmedLines_source]

/-- The lines of a generated source without the blanks in front of them. -/
theorem map_trimStart_generate :
    (Text.pieces (generate settings population forest state).1.toList).map Text.trimStart =
      Text.trimmedLines (head settings.output).toList ++
        Text.trimmedLines (Text.unlines
          (BlockProgram.lines (Forest.program settings population forest))) ++
        ["\x7d".toList] ++ [[]] := by
  rw [generate_eq_layout, Text.layoutBlocks, String.toList_ofList,
    Text.map_trimStart_pieces settings.oneLine_indentUnit settings.isBlank_indentUnit,
    trimmedLines_source]

end Codegen.Program

end EventSheet
