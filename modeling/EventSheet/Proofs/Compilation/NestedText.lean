import EventSheet.Proofs.Compilation.BlockProgram
import EventSheet.Text.Layout
namespace EventSheet.BlockProgram

/-! # Nested text

The text of a program when every block indents its own body, one fragment inside the other. With
the empty unit of indentation it is the flat text. -/

variable (unit : String)

mutual
def Statement.printNested : Statement → String
  | .bindFlag flag operands => (Statement.bindFlag flag operands).print
  | .bindCounter counter count => (Statement.bindCounter counter count).print
  | .evaluate operand => (Statement.evaluate operand).print
  | .block body => "\x7b\n" ++ Text.indent (printNested body) unit ++ "\x7d\n"
  | .loop counter body =>
      "for _ in 0.." ++ counter ++ " \x7b\n" ++ Text.indent (printNested body) unit ++ "\x7d\n"
  | .conditional flag body alternative =>
      "if " ++ flag ++ " \x7b\n" ++ Text.indent (printNested body) unit ++ alternative.printNested

def Alternative.printNested : Alternative → String
  | .done => "\x7d\n"
  | .otherwise body => "\x7d else \x7b\n" ++ Text.indent (printNested body) unit ++ "\x7d\n"
  | .elseIf flag body alternative =>
      "\x7d else if " ++ flag ++ " \x7b\n" ++ Text.indent (printNested body) unit ++
        alternative.printNested

def printNested : List Statement → String
  | [] => ""
  | head :: tail => head.printNested ++ printNested tail
end

example : printNested "  "
    [.conditional "night" [.loop "dim" [.evaluate (.call "light" ["lamp"] [])]]
      (.otherwise [.evaluate (.call "sleep" [] [])])] =
    "if night \x7b\n  for _ in 0..dim \x7b\n    light(lamp);\n  \x7d\n\x7d else \x7b\n" ++
      "  sleep();\n\x7d\n" := by
  decide

theorem printNested_append (first second : BlockProgram) :
    printNested unit (first ++ second) = printNested unit first ++ printNested unit second := by
  induction first with
  | nil => rw [List.nil_append, printNested, String.empty_append]
  | cons head tail induction =>
      rw [List.cons_append, printNested, printNested, induction, String.append_assoc]

theorem printNested_singleton (statement : Statement) :
    printNested unit [statement] = statement.printNested unit := by
  rw [printNested, printNested, String.append_empty]

theorem Statement.printNested_ne_empty (statement : Statement) :
    statement.printNested unit ≠ "" := by
  intro empty
  cases statement <;>
    simp [Statement.printNested, Statement.print, String.append_eq_empty_iff] at empty

theorem isEmpty_printNested (program : BlockProgram) :
    (printNested unit program).isEmpty = program.isEmpty := by
  cases program with
  | nil => rfl
  | cons head tail =>
      rw [List.isEmpty_cons, Bool.eq_false_iff, Ne, String.isEmpty_iff, printNested,
        String.append_eq_empty_iff]
      exact fun empty => head.printNested_ne_empty unit empty.1

mutual
theorem Statement.printNested_empty : ∀ statement : Statement,
    statement.printNested "" = statement.print
  | .bindFlag _ _ => rfl
  | .bindCounter _ _ => rfl
  | .evaluate _ => rfl
  | .block body => by
      rw [Statement.printNested, Statement.print, printNested_empty body]
      rfl
  | .loop counter body => by
      rw [Statement.printNested, Statement.print, printNested_empty body]
      rfl
  | .conditional flag body alternative => by
      rw [Statement.printNested, Statement.print, printNested_empty body,
        alternative.printNested_empty]
      rfl

theorem Alternative.printNested_empty : ∀ alternative : Alternative,
    alternative.printNested "" = alternative.print
  | .done => rfl
  | .otherwise body => by
      rw [Alternative.printNested, Alternative.print, printNested_empty body]
      rfl
  | .elseIf flag body alternative => by
      rw [Alternative.printNested, Alternative.print, printNested_empty body,
        alternative.printNested_empty]
      rfl

/-- Nothing is indented by the empty unit. -/
theorem printNested_empty : ∀ program : List Statement, printNested "" program = print program
  | [] => rfl
  | head :: tail => by
      rw [printNested, print, head.printNested_empty, printNested_empty tail]
end

end EventSheet.BlockProgram
