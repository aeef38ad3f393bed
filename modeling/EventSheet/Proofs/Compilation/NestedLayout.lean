import EventSheet.Proofs.Compilation.BlockDepth
import EventSheet.Proofs.Compilation.Leaves
import EventSheet.Proofs.Compilation.Quiet
namespace EventSheet

/-! # Laying out once and indenting fragment by fragment

A generated program is laid out in one pass over its lines, which knows nothing of the events they
came from. Where what was typed stays on its line and no action begins like the end of a block,
the outcome is that of a generator that indents every nested fragment on its own. -/

open BlockProgram

/-! ## Level lines -/

/-- A line that is read back as it was written and neither closes nor opens a block. -/
structure Text.Level (line : List Char) : Prop extends Stays line where
  closes : closesBlock line = false
  opens : opensBlock line = false

theorem Text.Level.lays {unit text : String} {line : List Char} (level : Level line)
    (split : text.toList = unlines [line]) : Lays unit 0 0 [line] text := by
  have single : Lays unit _ _ [line] text := .single level.toStays split
  rwa [level.closes, level.opens] at single

namespace BlockProgram

/-- A statement without blocks of its own, printed on one level line. -/
def Statement.Level (statement : Statement) : Prop := ∀ line ∈ statement.lines, Text.Level line

/-! ## Programs -/

section

variable {unit : String}

theorem stays_opening : Text.Stays "\x7b".toList := ⟨by decide, rfl, rfl⟩

theorem stays_else : Text.Stays "\x7d else \x7b".toList := ⟨by decide, rfl, rfl⟩

theorem lays_opening : Text.Lays unit 0 1 ["\x7b".toList] "\x7b\n" := .single stays_opening rfl

theorem lays_closing : Text.Lays unit 1 0 ["\x7d".toList] "\x7d\n" := .single stays_closing rfl

theorem lays_else : Text.Lays unit 1 1 ["\x7d else \x7b".toList] "\x7d else \x7b\n" :=
  .single stays_else rfl

/-- A header opens a block, and may close another one. -/
theorem lays_header {front ending text : String} (closing : Bool)
    (stays : Text.Stays (front ++ ending).toList)
    (closes : Text.closesBlock (front ++ ending).toList = closing)
    (opens : ending.toList.getLast? = some '\x7b')
    (split : text.toList = Text.unlines [(front ++ ending).toList]) :
    Text.Lays unit closing.toNat 1 [(front ++ ending).toList] text := by
  have solid : ending.toList ≠ [] := fun empty => by
    rw [empty] at opens
    cases opens
  have single : Text.Lays unit _ _ _ text := .single stays split
  rwa [closes, Text.opensBlock_append _ solid, Text.opensBlock, decide_eq_true opens] at single

theorem lays_if {flag : String} (identifier : IsIdentifier flag) :
    Text.Lays unit 0 1 [("if " ++ flag ++ " \x7b").toList] ("if " ++ flag ++ " \x7b\n") :=
  lays_header false (stays_if identifier) (by simp [Text.closesBlock]) rfl (by simp)

theorem lays_for {counter : String} (identifier : IsIdentifier counter) :
    Text.Lays unit 0 1 [("for _ in 0.." ++ counter ++ " \x7b").toList]
      ("for _ in 0.." ++ counter ++ " \x7b\n") :=
  lays_header false (stays_for identifier) (by simp [Text.closesBlock]) rfl (by simp)

theorem lays_elseIf {flag : String} (identifier : IsIdentifier flag) :
    Text.Lays unit 1 1 [("\x7d else if " ++ flag ++ " \x7b").toList]
      ("\x7d else if " ++ flag ++ " \x7b\n") :=
  lays_header true (stays_elseIf identifier) (by simp [Text.closesBlock]) rfl (by simp)

/-- A body is laid out between its header and what comes behind it. -/
theorem lays_body (oneLine : '\n' ∉ unit.toList) {header body behind : String} {line : List Char}
    {flat rest : List (List Char)} {start : Nat} (opens : Text.Lays unit start 1 [line] header)
    (inner : Text.Lays unit 0 0 flat body) (closes : Text.Lays unit 1 0 rest behind) :
    Text.Lays unit start 0 (line :: flat ++ rest) (header ++ Text.indent body unit ++ behind) :=
  (opens.append (inner.indent oneLine)).append closes

mutual
theorem Statement.lays (oneLine : '\n' ∉ unit.toList) : ∀ statement : Statement,
    statement.MadeOf Statement.Level IsIdentifier →
    Text.Lays unit 0 0 statement.lines (statement.printNested unit)
  | .bindFlag flag operands, level =>
      (level _ List.mem_cons_self).lays (Statement.bindFlag flag operands).toList_print
  | .bindCounter counter count, level =>
      (level _ List.mem_cons_self).lays (Statement.bindCounter counter count).toList_print
  | .evaluate operand, level =>
      (level _ List.mem_cons_self).lays (Statement.evaluate operand).toList_print
  | .block body, inner => lays_body oneLine lays_opening (lays oneLine body inner) lays_closing
  | .loop _ body, ⟨isName, inner⟩ =>
      lays_body oneLine (lays_for isName) (lays oneLine body inner) lays_closing
  | .conditional _ body alternative, ⟨isName, inner, behind⟩ =>
      lays_body oneLine (lays_if isName) (lays oneLine body inner) (alternative.lays oneLine behind)

theorem Alternative.lays (oneLine : '\n' ∉ unit.toList) : ∀ alternative : Alternative,
    alternative.MadeOf Statement.Level IsIdentifier →
    Text.Lays unit 1 0 alternative.lines (alternative.printNested unit)
  | .done, _ => lays_closing
  | .otherwise body, inner => lays_body oneLine lays_else (lays oneLine body inner) lays_closing
  | .elseIf _ body alternative, ⟨isName, inner, behind⟩ =>
      lays_body oneLine (lays_elseIf isName) (lays oneLine body inner)
        (alternative.lays oneLine behind)

/-- The lines of a program whose leaves are level are laid out as its nested text. -/
theorem lays (oneLine : '\n' ∉ unit.toList) : ∀ program : List Statement,
    MadeOf Statement.Level IsIdentifier program →
    Text.Lays unit 0 0 (lines program) (printNested unit program)
  | [], _ => .nil unit 0
  | head :: tail, ⟨isHead, isTail⟩ =>
      (head.lays oneLine isHead).append (lays oneLine tail isTail)
end

end

/-! ## Leaves -/

theorem Statement.level_of_line {statement : Statement} {line : List Char}
    (isLine : statement.lines = [line]) (level : Text.Level line) : statement.Level := by
  rw [Level, isLine, List.forall_mem_singleton]
  exact level

theorem Statement.level_bindFlag {flag : String} (identifier : IsIdentifier flag)
    {operands : List Operand} (oneLine : IsOneLine (printConjunction operands)) :
    (bindFlag flag operands).Level := by
  refine level_of_line rfl ⟨stays_bindFlag identifier oneLine, by simp [Text.closesBlock], ?_⟩
  rw [Text.opensBlock_append _ (by decide)]
  rfl

theorem Statement.level_bindCounter {counter count : String} (identifier : IsIdentifier counter)
    (oneLine : IsOneLine count) : (bindCounter counter count).Level := by
  refine level_of_line rfl
    ⟨stays_bindCounter identifier oneLine, by simp [Text.closesBlock], ?_⟩
  rw [Text.opensBlock_append _ (by decide)]
  rfl

theorem Statement.level_evaluate {operand : Operand} (oneLine : IsOneLine operand.print)
    {first : Char} (begins : operand.print.toList.head? = some first)
    (solid : Text.isBlank first = false) (noBrace : first ≠ '\x7d') :
    (evaluate operand).Level := by
  rcases List.head?_eq_some_iff.mp begins with ⟨rest, starts⟩
  refine level_of_line rfl ⟨stays_evaluate oneLine starts solid, ?_, ?_⟩
  · simp [Text.closesBlock, starts, noBrace]
  · rw [Text.opensBlock_append _ (by decide)]
    rfl

theorem Statement.level_hook {name : String} (oneLine : IsOneLine name) {first : Char}
    (begins : name.toList.head? = some first) (solid : Text.isBlank first = false)
    (noBrace : first ≠ '\x7d') (node : NodeId) : (hook name node).Level := by
  have number : IsOneLine (Nat.repr node) := by
    intro isNewline
    have isWord := isWordCharacter_of_mem_repr isNewline
    revert isWord
    decide
  have printed : (Operand.call name [Nat.repr node] []).print =
      name ++ "(" ++ Nat.repr node ++ ")" := by
    rw [Operand.print, Operand.printAll, List.append_nil, String.intercalate_singleton]
  apply level_evaluate _ _ solid noBrace
  · rw [printed, isOneLine_append, isOneLine_append, isOneLine_append]
    exact ⟨⟨⟨oneLine, by decide⟩, number⟩, by decide⟩
  · rcases List.head?_eq_some_iff.mp begins with ⟨rest, starts⟩
    simp [printed, starts]

end BlockProgram

/-! ## Typed text -/

/-- A text that begins neither with a blank nor like the end of a block. -/
def Text.BeginsLevel (text : String) : Prop :=
  ∀ first ∈ text.toList.head?, isBlank first = false ∧ first ≠ '\x7d'

-- given by name, since trying every character is an instance as well
instance (text : String) : Decidable (Text.BeginsLevel text) :=
  Option.decidableForallMem text.toList.head?

/-- What was typed stays on its line, and no action begins like anything but a call. -/
structure Kind.Builtin.KeepsLines (builtin : Kind.Builtin) : Prop where
  oneLine : ∀ text ∈ builtin.texts, IsOneLine text
  actions : ∀ list ∈ builtin.actionLists, ∀ action ∈ list, Text.BeginsLevel action.name

theorem Instruction.makes_oneLine :
    Instruction.Makes (fun instruction => ∀ text ∈ instruction.texts, IsOneLine text)
      (fun operand => IsOneLine operand.print) where
  nested := by
    rintro ⟨name, parameters, inverted, nested⟩ oneLine below isBelow text isText
    rw [Instruction.texts, List.forall_mem_append] at oneLine
    exact oneLine.2 text (Instruction.mem_allTexts isBelow isText)
  call := by
    rintro ⟨name, parameters, inverted, nested⟩ oneLine - operands areOneLine
    rw [Instruction.texts, List.forall_mem_append, List.forall_mem_cons,
      List.forall_mem_map] at oneLine
    rcases oneLine with ⟨⟨isName, areParameters⟩, _⟩
    rw [Operand.print, isOneLine_append, isOneLine_append, isOneLine_append]
    refine ⟨⟨⟨isName, by decide⟩, isOneLine_intercalate (by decide) ?_⟩, by decide⟩
    rw [Operand.printAll_eq_map, List.forall_mem_append, List.forall_mem_map, List.forall_mem_map]
    exact ⟨fun parameter isOne => Codegen.isOneLine_argument (areParameters parameter isOne),
      areOneLine⟩
  negation := by
    intro operand oneLine
    rw [Operand.print, isOneLine_append]
    exact ⟨by decide, oneLine⟩

theorem InstructionList.isOneLine_conjunction {conditions : InstructionList}
    (oneLine : ∀ text ∈ Instruction.allTexts conditions, IsOneLine text) :
    IsOneLine (printConjunction (InstructionList.operands conditions)) := by
  have each : ∀ operand ∈ InstructionList.operands conditions, IsOneLine operand.print := by
    apply Instruction.makes_oneLine.conditions (by decide)
    exact fun condition isOne text isText =>
      oneLine text (Instruction.mem_allTexts isOne isText)
  rw [printConjunction]
  split
  · decide
  · apply isOneLine_intercalate (by decide)
    rw [Operand.printAll_eq_map, List.forall_mem_map]
    exact each

/-- The call of an action begins with the name of the action. -/
theorem Instruction.level_evaluate {action : Instruction} {operand : Operand}
    (oneLine : ∀ text ∈ action.texts, IsOneLine text) (begins : Text.BeginsLevel action.name)
    (isOperand : action.operand? = some operand) : (Statement.evaluate operand).Level := by
  have wholeLine := Instruction.makes_oneLine.operand oneLine isOperand
  rcases action with ⟨name, parameters, inverted, nested⟩
  rw [Instruction.operand?] at isOperand
  split at isOperand
  · cases isOperand
  · next named =>
      rw [Option.map_eq_some_iff] at isOperand
      rcases isOperand with ⟨operands, _, rfl⟩
      cases split : name.toList with
      | nil =>
          rw [Text.isBlankText, split] at named
          exact absurd rfl named
      | cons first rest =>
          rcases begins first (by rw [split]; rfl) with ⟨solid, noBrace⟩
          have starts : (Operand.call name (parameters.map Codegen.argument)
              operands).print.toList.head? = some first := by
            simp [Operand.print, split]
          exact Statement.level_evaluate wholeLine starts solid noBrace

/-- An event that keeps lines provides level leaves. -/
theorem Kind.Builtin.KeepsLines.provides {builtin : Kind.Builtin} (keeps : builtin.KeepsLines) :
    builtin.Provides Statement.Level where
  conditions := by
    intro list isList number
    apply Statement.level_bindFlag (isIdentifier_flag number)
    apply InstructionList.isOneLine_conjunction
    exact fun text isText => keeps.oneLine text (mem_texts (List.mem_append_left _ isList) isText)
  actions := by
    intro list isList action isAction operand isOperand
    apply Instruction.level_evaluate _ (keeps.actions list isList action isAction) isOperand
    exact fun text isText => keeps.oneLine text
      (mem_texts (List.mem_append_right _ isList) (Instruction.mem_allTexts isAction isText))
  count := by
    rintro repetition rfl number
    apply Statement.level_bindCounter (isIdentifier_counter number)
    exact Expression.isOneLine_trimmed
      (keeps.oneLine _ (List.mem_append_right _ (List.mem_singleton_self _)))

theorem hooks_level (settings : Settings) : settings.Hooks Statement.Level := by
  intro _ node
  constructor
  · exact @Statement.level_hook "profiler_begin" (by decide) 'p' rfl (by decide) (by decide) node
  · exact @Statement.level_hook "profiler_end" (by decide) 'p' rfl (by decide) (by decide) node

/-! ## The source -/

theorem Text.lays_level {unit text : String} {lines : List (List Char)}
    (level : ∀ line ∈ lines, Level line) (split : text.toList = unlines lines) :
    Lays unit 0 0 lines text := by
  induction lines generalizing text with
  | nil =>
      rw [unlines_nil, String.toList_eq_nil_iff] at split
      rw [split]
      exact .nil unit 0
  | cons head tail induction =>
      rw [List.forall_mem_cons] at level
      have first : Lays unit 0 0 [head] (String.ofList (unlines [head])) :=
        level.1.lays String.toList_ofList
      have rest : Lays unit 0 0 tail (String.ofList (unlines tail)) :=
        induction level.2 String.toList_ofList
      have both : String.ofList (unlines [head]) ++ String.ofList (unlines tail) = text := by
        rw [← String.toList_inj, split, String.toList_append, String.toList_ofList,
          String.toList_ofList, ← unlines_append, List.singleton_append]
      rw [← both]
      exact first.append rest

namespace Codegen.Program

/-- The lines of a header are read back as they were written and neither close nor open blocks. -/
def IsLevelHeader (header : String) : Prop :=
  ∀ line ∈ Text.pieces header.toList, Text.trimStart line = line ∧ '\r' ∉ line ∧
    Text.closesBlock line = false ∧ Text.opensBlock line = false

instance (header : String) : Decidable (IsLevelHeader header) :=
  inferInstanceAs (Decidable (∀ line ∈ Text.pieces header.toList, _))

theorem IsLevelHeader.level {header : String} (isHeader : IsLevelHeader header) :
    ∀ line ∈ Text.pieces header.toList, Text.Level line := by
  intro line isLine
  rcases isHeader line isLine with ⟨trimmed, noReturn, closes, opens⟩
  refine ⟨⟨Text.oneLine_of_mem_pieces isLine, ?_, trimmed⟩, closes, opens⟩
  rw [Text.dropCarriageReturn, if_neg]
  exact fun isReturn => noReturn (List.mem_of_getLast? isReturn)

variable {settings : Settings} {population : Population} {forest : Forest Kind.Builtin}
  {state : ProgramState}

/-- The lines of a generated program, header and function included. -/
def lines (output : OutputSettings) (program : BlockProgram) : List (List Char) :=
  Text.pieces output.header.toList ++ [[]] ++
    (("pub fn " ++ output.entryPoint ++ "() \x7b").toList :: BlockProgram.lines program ++
      ["\x7d".toList])

theorem toList_frame (output : OutputSettings) (program : BlockProgram) :
    (frame output (BlockProgram.print program)).toList = Text.unlines (lines output program) := by
  rw [frame, lines, Text.unlines_append, Text.unlines_append, Text.unlines_pieces]
  simp [BlockProgram.toList_print, Text.newline]

theorem lays_frame {output : OutputSettings} (isHeader : IsLevelHeader output.header)
    (entryPoint : IsOneLine output.entryPoint) {unit : String} (oneLine : '\n' ∉ unit.toList)
    {program : BlockProgram} (level : MadeOf Statement.Level IsIdentifier program) :
    Text.Lays unit 0 0 (lines output program)
      (output.header ++ "\n\n" ++ ("pub fn " ++ output.entryPoint ++ "() \x7b\n" ++
        Text.indent (BlockProgram.printNested unit program) unit ++ "\x7d\n")) := by
  have top : Text.Lays unit 0 0 (Text.pieces output.header.toList ++ [[]])
      (output.header ++ "\n\n") := by
    apply Text.lays_level
    · rw [List.forall_mem_append, List.forall_mem_singleton]
      exact ⟨isHeader.level, ⟨⟨List.not_mem_nil, rfl, rfl⟩, rfl, rfl⟩⟩
    · rw [Text.unlines_append, Text.unlines_pieces, String.toList_append]
      simp [Text.newline]
  have stays : Text.Stays ("pub fn " ++ output.entryPoint ++ "() \x7b").toList := by
    refine stays_of_text ?_ 'p' ("ub fn ".toList ++ output.entryPoint.toList ++ "() ".toList) '\x7b'
      (by simp) (by decide) (by decide)
    rw [isOneLine_append, isOneLine_append]
    exact ⟨⟨by decide, entryPoint⟩, by decide⟩
  have opens : Text.Lays unit 0 1 _ ("pub fn " ++ output.entryPoint ++ "() \x7b\n") :=
    lays_header false stays (by simp [Text.closesBlock]) rfl (by simp)
  exact top.append (lays_body oneLine opens (BlockProgram.lays oneLine program level) lays_closing)

/-- Laying out the whole program gives what indenting fragment by fragment gives. In a forest where
what was typed stays on its line and no action begins with a blank or a closing brace, with an
entry point on one line and a header of level lines, the source is the header and around an
indented body the generated function, where the body is what the generator emits when it indents
nested fragments itself. No line of the program closes a block that none has opened, and behind
the last line all are closed. -/
theorem generate_eq_indent (settings : Settings) (population : Population)
    (forest : Forest Kind.Builtin) (state : ProgramState)
    (keepsLines : ∀ event ∈ Forest.members forest, event.behavior.KeepsLines)
    (entryPoint : IsOneLine settings.output.entryPoint)
    (isHeader : IsLevelHeader settings.output.header) :
    (generate settings population forest state).1 =
      settings.output.header ++ "\n\n" ++ "pub fn " ++ settings.output.entryPoint ++ "() \x7b\n" ++
        Text.indent (Forest.generate
            { generator settings population with indentUnit := settings.indentUnit } forest
            { generator := state }).1 settings.indentUnit ++ "\x7d\n" ∧
      Text.depthBehind? 0 (Text.trimmedLines (frame settings.output
        (Forest.generate (generator settings population) forest { generator := state }).1).toList) =
          some 0 := by
  have level : MadeOf Statement.Level IsIdentifier
      (Forest.program settings population forest) :=
    Forest.madeOf_program ⟨isIdentifier_flag, isIdentifier_counter⟩ (hooks_level settings)
      fun event isMember => (keepsLines event isMember).provides
  have lays := lays_frame isHeader entryPoint settings.oneLine_indentUnit level
  constructor
  · rw [generate_eq_layout, lays.layoutBlocks_eq (toList_frame _ _),
      Forest.generate_eq_printNested settings population settings.indentUnit forest state]
    simp only [String.append_assoc]
  · rw [Forest.generate_eq_print, toList_frame, Text.trimmedLines_unlines_of_stays lays.stays]
    exact lays.depth

/-- A repetition around a branch of two arms. -/
def patrol : Forest Kind.Builtin :=
  [⟨{ id := 1, behavior := .repetition { count := ⟨"3"⟩, actions := [{ name := "step" }] } },
    [⟨{ id := 2, behavior := .branch { arms :=
      [{ conditions := [{ name := "seen" }], actions := [{ name := "flee" }] },
        { conditions := [{ name := "heard" }], actions := [{ name := "wait" }] }] } }, []⟩]⟩]

theorem patrol_keepsLines : ∀ event ∈ Forest.members patrol, event.behavior.KeepsLines := by
  intro event isMember
  rcases List.mem_cons.mp isMember with rfl | isLater
  · exact ⟨by decide, by decide⟩
  · rw [List.mem_singleton.mp isLater]
    exact ⟨by decide, by decide⟩

theorem generate_eq_indent_patrol :
    (generate {} {} patrol {}).1 =
      "// Auto-generated code from Pulsar events" ++ "\n\n" ++ "pub fn " ++ "run_events" ++
        "() \x7b\n" ++
        Text.indent (Forest.generate { generator {} {} with indentUnit := "    " } patrol
            { generator := {} }).1 "    " ++ "\x7d\n" :=
  (generate_eq_indent {} {} patrol {} patrol_keepsLines (by decide) (by decide)).1

end Codegen.Program

end EventSheet
