import EventSheet.Proofs.Compilation.Profiling
import Mathlib.Data.List.Infix
namespace EventSheet

/-! # Typed text in the source

The statements of an event are printed with its calls as they were typed, and the program is then
laid out line by line, which takes no notice of where a text goes on over several lines. So a call
typed on one line stands in the source as it was typed, and of one with line breaks every line is
moved on its own. -/

open BlockProgram Codegen

/-! ## Layout of a part -/

namespace Text

variable {part lines : List (List Char)}

theorem exists_infix_indented (unit : List Char) (depth : Nat) (isPart : part <:+: lines) :
    ∃ within, indented unit within part <:+: indented unit depth lines := by
  rcases isPart with ⟨front, behind, rfl⟩
  rcases exists_indented_append unit depth front with ⟨within, appendFront⟩
  rcases exists_indented_append unit within part with ⟨after, appendPart⟩
  refine ⟨within, ?_⟩
  rw [List.append_assoc, appendFront, appendPart]
  exact List.infix_append' _ _ _

/-- Some lines of a text are laid out together, at the depth that the ones in front of them end
at. -/
theorem exists_infix_layout (unit : List Char) (depth : Nat) (isPart : part <:+: lines) :
    ∃ within,
      (layoutLines unit within part).flatten <:+: (layoutLines unit depth lines).flatten := by
  rcases exists_infix_indented unit depth isPart with ⟨within, isInfix⟩
  refine ⟨within, ?_⟩
  rw [layoutLines_eq, layoutLines_eq]
  exact (isInfix.map (· ++ newline)).flatten

/-- Without indentation lines are laid out as they are. -/
theorem flatten_layoutLines_nil (depth : Nat) (lines : List (List Char)) :
    (layoutLines [] depth lines).flatten = unlines lines := by
  induction lines generalizing depth with
  | nil => rfl
  | cons head tail induction =>
      have line : layoutLine [] (lineDepth depth head) head = head ++ newline := by
        cases head <;> simp [layoutLine]
      rw [layoutLines, List.flatten_cons, induction, line]
      rfl

theorem infix_layoutLine (unit : List Char) (depth : Nat) (line : List Char) :
    line <:+: layoutLine unit depth line := by
  cases line with
  | nil => exact List.nil_infix
  | cons head tail => exact List.infix_append _ _ _

theorem trimStart_infix_append (first second : List Char) :
    trimStart first <:+: trimStart (first ++ second) := by
  rw [trimStart, trimStart, List.dropWhile_append]
  split
  · next blank =>
      rw [List.isEmpty_iff.mp blank]
      exact List.nil_infix
  · exact List.infix_append_left

end Text

theorem Codegen.Program.exists_infix_generate {settings : Settings} {population : Population}
    {forest : Forest Kind.Builtin} {state : ProgramState} {part : List (List Char)}
    (isPart : part <:+: BlockProgram.lines (Forest.program settings population forest)) :
    ∃ depth, (Text.layoutLines settings.indentUnit.toList depth
        (Text.trimmedLines (Text.unlines part))).flatten <:+:
      (generate settings population forest state).1.toList := by
  rw [generate_eq_layout, Text.layoutBlocks, String.toList_ofList, Text.layoutCharacters,
    trimmedLines_source]
  apply Text.exists_infix_layout
  rw [Text.trimmedLines_unlines, Text.trimmedLines_unlines, List.append_assoc]
  exact List.infix_append_of_infix_right (List.infix_append_of_infix_left (isPart.flatMap _))

/-! ## Lines of a part -/

namespace BlockProgram

variable {part : List (List Char)} {program : BlockProgram}

theorem infix_cons (isPart : part <:+: lines program) (head : Statement) :
    part <:+: lines (head :: program) := by
  rw [lines]
  exact List.infix_append_of_infix_right isPart

theorem infix_singleton {statement : Statement} (isPart : part <:+: statement.lines) :
    part <:+: lines [statement] := by
  rw [lines]
  exact List.infix_append_of_infix_left isPart

theorem infix_block (isPart : part <:+: lines program) :
    part <:+: (Statement.block program).lines := by
  rw [Statement.lines, List.cons_append]
  exact List.infix_cons (List.infix_append_of_infix_left isPart)

theorem infix_loop (isPart : part <:+: lines program) (counter : String) :
    part <:+: (Statement.loop counter program).lines := by
  rw [Statement.lines, List.cons_append]
  exact List.infix_cons (List.infix_append_of_infix_left isPart)

theorem infix_conditional (isPart : part <:+: lines program) (flag : String)
    (alternative : Alternative) :
    part <:+: (Statement.conditional flag program alternative).lines := by
  rw [Statement.lines, List.cons_append]
  exact List.infix_cons (List.infix_append_of_infix_left isPart)

theorem infix_nested (isPart : part <:+: lines program) : part <:+: lines program.nested := by
  rw [nested]
  split
  · next empty =>
      rwa [List.isEmpty_iff.mp empty] at isPart
  · exact infix_singleton (infix_block isPart)

theorem infix_withHooks (isPart : part <:+: lines program) (emitHooks : Bool) (node : NodeId) :
    part <:+: lines (program.withHooks emitHooks node) := by
  rw [withHooks]
  split
  · next empty =>
      rwa [List.isEmpty_iff.mp empty] at isPart
  · split
    · rw [lines_append, ← List.singleton_append, lines_append]
      exact isPart.trans (List.infix_append _ _ _)
    · exact isPart

end BlockProgram

/-! ## Events -/

/-- Whatever names were handed out before, the program has these lines in a row. -/
def Naming.HasLines (naming : Naming BlockProgram) (part : List (List Char)) : Prop :=
  ∀ names, part <:+: lines (naming names).1

namespace Naming.HasLines

variable {naming : Naming BlockProgram} {part : List (List Char)}

theorem within (has : naming.HasLines part) {limit depth : Nat} (notDeeper : depth ≤ limit) :
    (naming.within limit depth).HasLines part := by
  rw [Naming.within, if_neg (Nat.not_lt_of_le notDeeper)]
  exact has

theorem standardBody {standard : Kind.Standard}
    (has : ∀ names,
      part <:+: lines (InstructionList.statements standard.actions ++ (naming names).1.nested)) :
    (standard.program naming).HasLines part := by
  intro names
  have body := has (Naming.flag names).2
  exact infix_cons (infix_singleton (infix_conditional body _ .done)) _

theorem standard (has : naming.HasLines part) (standard : Kind.Standard) :
    (standard.program naming).HasLines part := by
  apply standardBody
  intro names
  rw [lines_append]
  exact List.infix_append_of_infix_right (infix_nested (has names))

theorem standardActions (standard : Kind.Standard) (naming : Naming BlockProgram) :
    (standard.program naming).HasLines (lines (InstructionList.statements standard.actions)) := by
  apply standardBody
  intro names
  rw [lines_append]
  exact List.infix_append_left

theorem repetition {repetition : Kind.Repetition} (counted : repetition.count.isEmpty = false)
    (has : (Kind.Standard.program ⟨repetition.conditions, repetition.actions⟩ naming).HasLines
      part) :
    (repetition.program naming).HasLines part := by
  rw [Kind.Repetition.program, counted]
  intro names
  have body := has (Naming.counter names).2
  exact infix_cons (infix_singleton (infix_loop body _)) _

end Naming.HasLines

/-! The arms of a branch. -/

namespace Kind.Branch

variable {otherwise actions : InstructionList} {named : List (BranchArm × String)}

theorem lines_infix_alternative
    (isList : actions ∈ (named.map Prod.fst).map BranchArm.actions ++ [otherwise]) :
    lines (InstructionList.statements actions) <:+: (alternative otherwise named).lines := by
  induction named with
  | nil =>
      rw [List.mem_singleton.mp isList, alternative]
      split
      · next empty =>
          rw [List.isEmpty_iff.mp empty]
          exact List.nil_infix
      · exact List.infix_cons List.infix_append_left
  | cons head tail induction =>
      rw [alternative, Alternative.lines, List.cons_append]
      apply List.infix_cons
      rcases List.mem_cons.mp isList with rfl | isLater
      · exact List.infix_append_left
      · exact List.infix_append_of_infix_right (induction isLater)

theorem lines_infix_assemble
    (isList : actions ∈ (named.map Prod.fst).map BranchArm.actions ++ [otherwise]) :
    lines (InstructionList.statements actions) <:+: lines (assemble otherwise named) := by
  cases named with
  | nil =>
      rw [List.mem_singleton.mp isList, assemble]
      split
      · next empty =>
          rw [List.isEmpty_iff.mp empty]
          exact List.nil_infix
      · exact infix_singleton (infix_block (List.infix_refl _))
  | cons head tail =>
      rw [assemble, lines_append]
      apply List.infix_append_of_infix_right
      apply infix_singleton
      rcases List.mem_cons.mp isList with rfl | isLater
      · exact infix_conditional (List.infix_refl _) _ _
      · exact List.infix_append_of_infix_right (lines_infix_alternative isLater)

theorem hasLines (branch : Branch) (isList : actions ∈ branch.actionLists) :
    branch.program.HasLines (lines (InstructionList.statements actions)) := by
  intro names
  apply lines_infix_assemble
  rwa [map_fst_nameArms branch.arms names]

end Kind.Branch

/-! ## Forests -/

section

variable (settings : Settings) (population : Population)

/-- The program of nodes has the lines of the actions of every event among them that produces
code. -/
def PrintsActions (ancestors : List (Event Kind.Builtin)) (forest : List (Node Kind.Builtin)) :
    Prop :=
  ∀ lineage ∈ Program.producingLineages settings ancestors forest,
    ∀ actions ∈ lineage.node.event.behavior.actionLists,
      (Forest.programs settings population (Event.blocks ancestors) forest).HasLines
        (lines (InstructionList.statements actions))

variable {settings population}

theorem Node.hasLines_actions {event : Event Kind.Builtin} (produces : event.producesCode = true)
    {actions : InstructionList} (isList : actions ∈ event.behavior.actionLists) (depth : Nat)
    (subEvents : List (Node Kind.Builtin)) :
    (Node.program settings population depth ⟨event, subEvents⟩).HasLines
      (lines (InstructionList.statements actions)) := by
  rcases event with ⟨id, behavior, disabled, folded, remembered⟩
  cases disabled with
  | true => cases produces
  | false =>
      rw [Node.program]
      cases behavior with
      | standard standard =>
          rw [List.mem_singleton.mp isList]
          exact Naming.HasLines.standardActions standard _
      | branch branch => exact branch.hasLines isList
      | repetition repetition =>
          rw [List.mem_singleton.mp isList]
          have counted : repetition.count.isEmpty = false := (Bool.not_eq_true' _).mp produces
          exact Naming.HasLines.repetition counted (Naming.HasLines.standardActions _ _)
      | comment comment => cases produces
      | link link => cases produces

theorem PrintsActions.node {event : Event Kind.Builtin} {ancestors : List (Event Kind.Builtin)}
    {subEvents : List (Node Kind.Builtin)}
    (prints : PrintsActions settings population (event :: ancestors) subEvents)
    {lineage : Lineage Kind.Builtin}
    (isBelow : lineage ∈ Program.producingLineages settings (event :: ancestors) subEvents)
    {actions : InstructionList} (isList : actions ∈ lineage.node.event.behavior.actionLists) :
    (Node.program settings population (Event.blocks ancestors) ⟨event, subEvents⟩).HasLines
      (lines (InstructionList.statements actions)) := by
  -- there is nothing below events that are not passed
  have generates : event.generatesSubEvents = true := by
    by_contra stops
    rw [Program.producingLineages_below_eq_nil (Bool.eq_false_iff.mpr stops)] at isBelow
    cases isBelow
  have within : Event.blocks (event :: ancestors) ≤ settings.limits.maxNestingDepth.toNat := by
    by_contra deeper
    rw [Program.producingLineages_eq_nil fun passes => deeper passes.2] at isBelow
    cases isBelow
  have inner := (prints lineage isBelow actions isList).within within
  rw [Event.blocks_cons] at inner
  rcases event with ⟨id, behavior, disabled, folded, remembered⟩
  cases disabled with
  | true => cases generates
  | false =>
      rw [Node.program]
      cases behavior with
      | standard standard => exact inner.standard standard
      | branch branch => cases generates
      | repetition repetition =>
          have counted : repetition.count.isEmpty = false := (Bool.not_eq_true' _).mp generates
          exact Naming.HasLines.repetition counted (inner.standard _)
      | comment comment => cases generates
      | link link => cases generates

theorem PrintsActions.cons {event : Event Kind.Builtin} {subEvents tail : List (Node Kind.Builtin)}
    {ancestors : List (Event Kind.Builtin)}
    (below : PrintsActions settings population (event :: ancestors) subEvents)
    (behind : PrintsActions settings population ancestors tail) :
    PrintsActions settings population ancestors (⟨event, subEvents⟩ :: tail) := by
  intro lineage isLineage actions isList names
  have passed : ancestors.all Event.generatesSubEvents = true ∧
      Event.blocks ancestors ≤ settings.limits.maxNestingDepth.toNat := by
    by_contra stopped
    rw [Program.producingLineages_eq_nil stopped] at isLineage
    cases isLineage
  rw [Program.producingLineages_cons passed.1 passed.2] at isLineage
  change _ <:+: lines (_ ++ _)
  rw [lines_append]
  rcases List.mem_append.mp isLineage with isHead | isTail
  · apply List.infix_append_of_infix_left
    apply infix_withHooks
    split at isHead
    · next produces =>
        rcases List.mem_cons.mp isHead with rfl | isBelow
        · exact Node.hasLines_actions produces isList _ _ names
        · exact below.node isBelow isList names
    · cases isHead
  · exact List.infix_append_of_infix_right (behind lineage isTail actions isList _)

theorem Forest.printsActions : ∀ (forest : List (Node Kind.Builtin))
    (ancestors : List (Event Kind.Builtin)), PrintsActions settings population ancestors forest
  | [], _ => by
      intro lineage isLineage
      cases isLineage
  | ⟨event, subEvents⟩ :: tail, ancestors =>
      (Forest.printsActions subEvents (event :: ancestors)).cons
        (Forest.printsActions tail ancestors)

/-- The actions of every event that produces code are statements in a row of the program. -/
theorem Forest.statements_infix_program {forest : Forest Kind.Builtin}
    {lineage : Lineage Kind.Builtin}
    (emitted : lineage ∈ Program.producingLineages settings [] forest) {actions : InstructionList}
    (isList : actions ∈ lineage.node.event.behavior.actionLists) :
    lines (InstructionList.statements actions) <:+:
      lines (Forest.program settings population forest) :=
  (Forest.printsActions forest [] lineage emitted actions isList).within (Nat.zero_le _) {}

end

/-! ## Calls -/

namespace Text

/-- A text on one line is laid out as it is, but for the blanks in front of it. -/
theorem trimStart_infix_layout (unit : List Char) (depth : Nat) {text : List Char}
    (oneLine : '\n' ∉ text) :
    trimStart text <:+:
      (layoutLines unit depth (trimmedLines (text ++ [';'] ++ newline))).flatten := by
  have whole : dropCarriageReturn (text ++ [';']) = text ++ [';'] := by
    rw [dropCarriageReturn, List.getLast?_append, if_neg]
    simp
  have statement : '\n' ∉ text ++ [';'] := by simpa using oneLine
  rw [trimmedLines_line statement whole, layoutLines, layoutLines, List.flatten_singleton]
  exact (trimStart_infix_append text [';']).trans (infix_layoutLine _ _ _)

/-- Without indentation a text of lines that stay is laid out as it is. -/
theorem layout_of_stays (depth : Nat) {text : List Char}
    (stays : ∀ line ∈ pieces text, Stays line) :
    (layoutLines [] depth (trimmedLines (text ++ newline))).flatten = text ++ newline := by
  rw [← unlines_pieces, trimmedLines_unlines_of_stays stays, flatten_layoutLines_nil]

end Text

theorem InstructionList.lines_statements (actions : InstructionList) :
    lines (InstructionList.statements actions) =
      (actions.filterMap Instruction.operand?).map fun operand =>
        (operand.print ++ ";").toList := by
  rw [InstructionList.statements]
  induction actions.filterMap Instruction.operand? with
  | nil => rfl
  | cons head tail induction =>
      rw [List.map_cons, lines, induction, Statement.lines, List.singleton_append, List.map_cons]

theorem InstructionList.call_infix_lines {actions : InstructionList} {action : Instruction}
    (isAction : action ∈ actions) {call : String}
    (rendered : (renderCall action).result = some call) :
    [(call ++ ";").toList] <:+: lines (InstructionList.statements actions) := by
  rw [action.result_renderCall, Option.map_eq_some_iff] at rendered
  rcases rendered with ⟨operand, called, rfl⟩
  rw [List.singleton_infix_iff, InstructionList.lines_statements]
  exact List.mem_map_of_mem (List.mem_filterMap.mpr ⟨action, isAction, called⟩)

namespace Codegen.Program

/-- Every call of an action of an event that produces code is laid out in the source as a statement
of its own, each of its lines trimmed and moved to the depth that the layout reads off. So a call on
one line stands in the source as it is, but for blanks in front of its name, and so does one with
line breaks where nothing is trimmed and nothing indented. -/
theorem generate_infix_call (settings : Settings) (population : Population)
    (forest : Forest Kind.Builtin) (state : ProgramState) {lineage : Lineage Kind.Builtin}
    (emitted : lineage ∈ producingLineages settings [] forest) {actions : InstructionList}
    (isList : actions ∈ lineage.node.event.behavior.actionLists) {action : Instruction}
    (isAction : action ∈ actions) {call : String}
    (rendered : (renderCall action).result = some call) :
    let source := (generate settings population forest state).1.toList
    (∃ depth, (Text.layoutLines settings.indentUnit.toList depth
      (Text.trimmedLines (call ++ ";\n").toList)).flatten <:+: source) ∧
    ('\n' ∉ call.toList → Text.trimStart call.toList <:+: source) ∧
    (settings.output.indentWidth = 0 →
      (∀ line ∈ Text.pieces (call ++ ";").toList, Text.Stays line) →
      call.toList <:+: source) := by
  intro source
  have isPart : [(call ++ ";").toList] <:+:
      BlockProgram.lines (Forest.program settings population forest) :=
    (InstructionList.call_infix_lines isAction rendered).trans
      (Forest.statements_infix_program emitted isList)
  rcases exists_infix_generate isPart with ⟨depth, laidOut⟩
  have semicolon : (call ++ ";").toList = call.toList ++ [';'] := String.toList_append
  have statement : (call ++ ";\n").toList = call.toList ++ [';'] ++ Text.newline := by
    simp [Text.newline]
  have unlined : Text.unlines [call.toList ++ [';']] = call.toList ++ [';'] ++ Text.newline :=
    List.append_nil _
  rw [semicolon, unlined] at laidOut
  refine ⟨⟨depth, by rwa [statement]⟩, ?_, ?_⟩
  · exact fun oneLine => (Text.trimStart_infix_layout _ depth oneLine).trans laidOut
  · intro flat stays
    have noUnit : settings.indentUnit.toList = [] := by
      rw [settings.toList_indentUnit, flat]
      rfl
    rw [semicolon] at stays
    rw [noUnit, Text.layout_of_stays depth stays, List.append_assoc] at laidOut
    exact List.infix_append_left.trans laidOut

/-- A repetition, for a lantern below it. -/
def rounds : Event Kind.Builtin :=
  { id := 1, behavior := .repetition { count := ⟨"3"⟩, actions := [{ name := "step" }] } }

def lantern : Node Kind.Builtin :=
  ⟨{ id := 2, behavior := .standard { actions :=
    [{ name := "light", parameters := [⟨" \"the lamp\" "⟩] }] } }, []⟩

theorem rounds_infix_call :
    "light(\"the lamp\")".toList <:+: (generate {} {} [⟨rounds, [lantern]⟩] {}).1.toList := by
  have emitted : ⟨[rounds], lantern⟩ ∈ producingLineages {} [] [⟨rounds, [lantern]⟩] :=
    List.mem_cons_of_mem _ List.mem_cons_self
  have calls := generate_infix_call {} {} _ {} emitted List.mem_cons_self List.mem_cons_self rfl
  exact calls.2.1 (by decide)

/-- An action whose text goes on over two lines inside a literal. -/
def proclamation : Forest Kind.Builtin :=
  [⟨{ id := 1, behavior := .standard { actions :=
    [{ name := "say", parameters := [⟨"\"first\n  second\""⟩] }] } }, []⟩]

theorem proclamation_altered :
    ¬ ∀ lineage ∈ producingLineages {} [] proclamation,
      ∀ actions ∈ lineage.node.event.behavior.actionLists, ∀ action ∈ actions,
      ∀ call ∈ (renderCall action).result,
        call.toList <:+: (generate {} {} proclamation {}).1.toList := by
  decide +kernel

end Codegen.Program

end EventSheet
