import EventSheet.Proofs.Compilation.Effects
import EventSheet.Proofs.Compilation.Rows
namespace EventSheet

/-! # Names where they are used

The names that the program of a forest binds are numbered in the order they are bound in, whatever
the nesting, and a header only uses a name that was bound before it in the block it stands in. What
is left in the scope of the generated code is what is bound outside of all nested blocks. -/

open BlockProgram

namespace BlockProgram

/-! ## Blocks -/

namespace Row

def bound? : Row → Option String
  | .binds name => some name
  | _ => none

/-- The blocks behind a row, each with the names bound in it so far, the innermost block first. A
name has to be one of the block its header stands in, and a block has to be open to be closed. -/
def enter (blocks : List (List String)) : Row → Option (List (List String))
  | .binds name =>
      match blocks with
      | [] => none
      | names :: outer => some ((names ++ [name]) :: outer)
  | .opens use =>
      match blocks with
      | [] => none
      | names :: outer => if use.all (names.contains ·) then some ([] :: names :: outer) else none
  | .turns use =>
      match blocks with
      | _ :: names :: outer =>
          if use.all (names.contains ·) then some ([] :: names :: outer) else none
      | _ => none
  | .closes =>
      match blocks with
      | _ :: names :: outer => some (names :: outer)
      | _ => none
  | .other => some blocks

end Row

/-- The names bound in any block, in order. -/
def boundNames (rows : List Row) : List String := rows.filterMap Row.bound?

/-- The blocks behind rows; nothing when a name is used where it is not bound. -/
def scan (blocks : List (List String)) (rows : List Row) : Option (List (List String)) :=
  rows.foldlM Row.enter blocks

theorem scan_append (blocks : List (List String)) (first second : List Row) :
    scan blocks (first ++ second) = (scan blocks first).bind (scan · second) :=
  List.foldlM_append

theorem boundNames_append (first second : List Row) :
    boundNames (first ++ second) = boundNames first ++ boundNames second :=
  List.filterMap_append

/-- Behind names of its block, a program uses names where they are bound, and adds those it binds
itself to the block. -/
def Scoped (names : List String) (program : BlockProgram) : Prop :=
  ∀ outer, scan (names :: outer) (rows program) = some ((names ++ bound program) :: outer)

namespace Scoped

variable {names : List String} {first second body : BlockProgram}

theorem nil (names : List String) : Scoped names [] := by
  intro outer
  rw [bound, List.filterMap_nil, List.append_nil]
  rfl

theorem append (isFirst : Scoped names first) (isSecond : Scoped (names ++ bound first) second) :
    Scoped names (first ++ second) := by
  intro outer
  rw [rows_append, scan_append, isFirst outer, Option.bind_some, isSecond outer, bound_append,
    List.append_assoc]

/-- Back from a block to the one around it. -/
theorem closing (isBody : Scoped [] body) (outer : List (List String)) :
    scan ([] :: names :: outer) (rows body ++ [.closes]) = some (names :: outer) := by
  rw [scan_append, isBody]
  rfl

theorem bindFlag (names : List String) (flag : String) (operands : List Operand) :
    Scoped names [.bindFlag flag operands] :=
  fun _ => rfl

theorem bindCounter (names : List String) (counter count : String) :
    Scoped names [.bindCounter counter count] :=
  fun _ => rfl

theorem evaluate (names : List String) (operand : Operand) : Scoped names [.evaluate operand] := by
  intro outer
  rw [bound, List.filterMap_cons_none rfl, List.filterMap_nil, List.append_nil]
  rfl

theorem block (names : List String) (isBody : Scoped [] body) : Scoped names [.block body] := by
  intro outer
  have entered : scan (names :: outer) (rows [.block body]) =
      scan ([] :: names :: outer) (rows body ++ [.closes] ++ []) := rfl
  rw [entered, List.append_nil, isBody.closing, bound, List.filterMap_cons_none rfl,
    List.filterMap_nil, List.append_nil]

theorem loop {counter : String} (isBound : counter ∈ names) (isBody : Scoped [] body) :
    Scoped names [.loop counter body] := by
  intro outer
  have entered : scan (names :: outer) (rows [.loop counter body]) =
      (if names.contains counter then some ([] :: names :: outer) else none).bind
        (scan · (rows body ++ [.closes] ++ [])) := rfl
  rw [entered, if_pos (List.contains_iff_mem.mpr isBound), Option.bind_some, List.append_nil,
    isBody.closing, bound, List.filterMap_cons_none rfl, List.filterMap_nil, List.append_nil]

end Scoped

/-- Behind names of the block around it, what comes behind the body of a conditional uses names
where they are bound. -/
def Alternative.Scoped (names : List String) (alternative : Alternative) : Prop :=
  ∀ inside outer, scan (inside :: names :: outer) alternative.rows = some (names :: outer)

namespace Scoped

variable {names : List String} {body : BlockProgram} {alternative : Alternative} {flag : String}

theorem done (names : List String) : Alternative.Scoped names .done := fun _ _ => rfl

theorem otherwise (isBody : Scoped [] body) : Alternative.Scoped names (.otherwise body) :=
  fun _ outer => isBody.closing outer

/-- A body and what comes behind it. -/
theorem turning (isBody : Scoped [] body) (isBehind : alternative.Scoped names)
    (outer : List (List String)) :
    scan ([] :: names :: outer) (rows body ++ alternative.rows) = some (names :: outer) := by
  rw [scan_append, isBody, Option.bind_some]
  exact isBehind _ outer

theorem elseIf (isBound : flag ∈ names) (isBody : Scoped [] body)
    (isBehind : alternative.Scoped names) :
    Alternative.Scoped names (.elseIf flag body alternative) := by
  intro inside outer
  have entered : scan (inside :: names :: outer) (Alternative.elseIf flag body alternative).rows =
      (if names.contains flag then some ([] :: names :: outer) else none).bind
        (scan · (rows body ++ alternative.rows)) := rfl
  rw [entered, if_pos (List.contains_iff_mem.mpr isBound), Option.bind_some,
    isBody.turning isBehind]

theorem conditional (isBound : flag ∈ names) (isBody : Scoped [] body)
    (isBehind : alternative.Scoped names) : Scoped names [.conditional flag body alternative] := by
  intro outer
  have entered : scan (names :: outer) (rows [.conditional flag body alternative]) =
      (if names.contains flag then some ([] :: names :: outer) else none).bind
        (scan · (rows body ++ alternative.rows ++ [])) := rfl
  rw [entered, if_pos (List.contains_iff_mem.mpr isBound), Option.bind_some, List.append_nil,
    isBody.turning isBehind, bound, List.filterMap_cons_none rfl, List.filterMap_nil,
    List.append_nil]

theorem statements (names : List String) (actions : InstructionList) :
    Scoped names (InstructionList.statements actions) := by
  rw [InstructionList.statements]
  induction actions.filterMap Instruction.operand? with
  | nil => exact nil names
  | cons operand rest induction =>
      apply (evaluate names operand).append
      rwa [bound, List.filterMap_cons_none rfl, List.filterMap_nil, List.append_nil]

theorem nested (names : List String) (isBody : Scoped [] body) : Scoped names body.nested := by
  cases body with
  | nil => exact nil names
  | cons head tail => exact block names isBody

theorem withHooks (isScoped : Scoped names body) (emitHooks : Bool) (node : NodeId) :
    Scoped names (body.withHooks emitHooks node) := by
  rw [BlockProgram.withHooks]
  split
  · exact nil names
  · split
    · have begins : Scoped names [hook "profiler_begin" node] := evaluate names _
      have ends : Scoped (names ++ bound body) [hook "profiler_end" node] := evaluate _ _
      apply begins.append
      rw [show bound [hook "profiler_begin" node] = [] from rfl, List.append_nil]
      exact isScoped.append ends
    · exact isScoped

end Scoped

/-! ## Numbers -/

def isFlag (name : String) : Bool := "condition_".toList.isPrefixOf name.toList

/-- Names are numbered in order, the flags and the counters each from the next number on. -/
def NumberedFrom (before : Names) (names : List String) (after : Names) : Prop :=
  ∃ flags counters, after = ⟨before.flags + flags, before.counters + counters⟩ ∧
    names.filter isFlag =
      (List.range' before.flags flags).map (SharedScope.numbered "condition") ∧
    names.filter (!isFlag ·) =
      (List.range' before.counters counters).map (SharedScope.numbered "repeat")

namespace NumberedFrom

variable {before between after : Names} {names more : List String}

theorem nil (names : Names) : NumberedFrom names [] names := ⟨0, 0, rfl, rfl, rfl⟩

theorem append (first : NumberedFrom before names between)
    (second : NumberedFrom between more after) : NumberedFrom before (names ++ more) after := by
  rcases first with ⟨flags, counters, rfl, areFlags, areCounters⟩
  rcases second with ⟨others, rest, rfl, areOthers, areRest⟩
  refine ⟨flags + others, counters + rest, ?_, ?_, ?_⟩
  · rw [Nat.add_assoc, Nat.add_assoc]
  · rw [List.filter_append, areFlags, areOthers, ← List.map_append, List.range'_append_1]
  · rw [List.filter_append, areCounters, areRest, ← List.map_append, List.range'_append_1]

theorem isFlag_flag (number : Nat) : isFlag (SharedScope.numbered "condition" number) = true := by
  rw [isFlag, List.isPrefixOf_iff_prefix, SharedScope.numbered, String.toList_append]
  exact List.prefix_append _ _

theorem not_isFlag_counter (number : Nat) :
    isFlag (SharedScope.numbered "repeat" number) = false := by
  rw [isFlag, SharedScope.numbered, String.toList_append, String.toList_append]
  rfl

theorem flag (names : Names) :
    NumberedFrom names [(Naming.flag names).1] (Naming.flag names).2 := by
  refine ⟨1, 0, rfl, ?_, ?_⟩
  · exact List.filter_cons_of_pos (isFlag_flag names.flags)
  · exact List.filter_cons_of_neg (by simp [Naming.flag, isFlag_flag])

theorem counter (names : Names) :
    NumberedFrom names [(Naming.counter names).1] (Naming.counter names).2 := by
  refine ⟨0, 1, rfl, ?_, ?_⟩
  · exact List.filter_cons_of_neg (by simp [Naming.counter, not_isFlag_counter])
  · exact List.filter_cons_of_pos (by simp [Naming.counter, not_isFlag_counter])

end NumberedFrom

/-! ## Names bound in programs -/

theorem boundNames_statements (actions : InstructionList) :
    boundNames (rows (InstructionList.statements actions)) = [] := by
  rw [InstructionList.statements]
  induction actions.filterMap Instruction.operand? with
  | nil => rfl
  | cons operand rest induction => exact induction

theorem boundNames_loop (counter : String) (body : BlockProgram) :
    boundNames (rows [.loop counter body]) = boundNames (rows body) := by
  have inner : rows [.loop counter body] =
      [.opens (some counter)] ++ rows body ++ [.closes] ++ [] := rfl
  rw [inner, boundNames_append, boundNames_append, boundNames_append]
  exact (List.append_nil _).trans (List.append_nil _)

theorem boundNames_conditional (flag : String) (body : BlockProgram) (alternative : Alternative) :
    boundNames (rows [.conditional flag body alternative]) =
      boundNames (rows body) ++ boundNames alternative.rows := by
  have inner : rows [.conditional flag body alternative] =
      [.opens (some flag)] ++ (rows body ++ alternative.rows) ++ [] := rfl
  rw [inner, boundNames_append, boundNames_append, boundNames_append]
  exact List.append_nil _

theorem boundNames_block (body : BlockProgram) :
    boundNames (rows [.block body]) = boundNames (rows body) := by
  have inner : rows [.block body] = [.opens none] ++ rows body ++ [.closes] ++ [] := rfl
  rw [inner, boundNames_append, boundNames_append, boundNames_append]
  exact (List.append_nil _).trans (List.append_nil _)

theorem boundNames_nested (program : BlockProgram) :
    boundNames (rows program.nested) = boundNames (rows program) := by
  cases program with
  | nil => rfl
  | cons head tail => exact boundNames_block (head :: tail)

theorem boundNames_withHooks (emitHooks : Bool) (node : NodeId) (program : BlockProgram) :
    boundNames (rows (program.withHooks emitHooks node)) = boundNames (rows program) := by
  rw [withHooks]
  split
  · next empty => rw [List.isEmpty_iff.mp empty]
  · split
    · rw [List.cons_append, rows, rows_append, boundNames_append, boundNames_append]
      exact List.append_nil _
    · rfl

end BlockProgram

/-! ## Events -/

/-- Whatever names were handed out before, those the program binds are numbered in order and used
where they are bound. -/
structure Naming.Orderly (naming : Naming BlockProgram) : Prop where
  isScoped : ∀ counts names, Scoped names (naming counts).1
  isNumbered : ∀ counts,
    NumberedFrom counts (boundNames (rows (naming counts).1)) (naming counts).2

namespace Naming.Orderly

variable {naming : Naming BlockProgram}

theorem nothing : Orderly (pure []) where
  isScoped := fun _ names => Scoped.nil names
  isNumbered := NumberedFrom.nil

theorem within (inner : naming.Orderly) (limit depth : Nat) :
    (naming.within limit depth).Orderly := by
  rw [Naming.within]
  split
  · exact nothing
  · exact inner

theorem standard (inner : naming.Orderly) (standard : Kind.Standard) :
    (standard.program naming).Orderly where
  isScoped := by
    intro counts names
    let flag := (Naming.flag counts).1
    have body : Scoped [] (InstructionList.statements standard.actions ++
        (naming (Naming.flag counts).2).1.nested) :=
      (Scoped.statements [] standard.actions).append (Scoped.nested _ (inner.isScoped _ []))
    exact (Scoped.bindFlag names flag _).append (Scoped.conditional
      (List.mem_append_right _ List.mem_cons_self) body (Scoped.done _))
  isNumbered := by
    intro counts
    let flag := (Naming.flag counts).1
    let body := InstructionList.statements standard.actions ++
      (naming (Naming.flag counts).2).1.nested
    have names : boundNames (rows (standard.program naming counts).1) =
        [flag] ++ boundNames (rows [.conditional flag body .done]) := rfl
    rw [names, boundNames_conditional, rows_append, boundNames_append, boundNames_statements,
      boundNames_nested, List.nil_append]
    exact (NumberedFrom.flag counts).append
      ((inner.isNumbered _).append (NumberedFrom.nil _))

theorem repetition (inner : naming.Orderly) (repetition : Kind.Repetition) :
    (repetition.program naming).Orderly := by
  have body := inner.standard ⟨repetition.conditions, repetition.actions⟩
  rw [Kind.Repetition.program]
  split
  · exact nothing
  · constructor
    · intro counts names
      exact (Scoped.bindCounter names (Naming.counter counts).1 _).append
        (Scoped.loop (List.mem_append_right _ List.mem_cons_self) (body.isScoped _ []))
    · intro counts
      have numbered := (NumberedFrom.counter counts).append
        (body.isNumbered (Naming.counter counts).2)
      rw [← boundNames_loop (Naming.counter counts).1] at numbered
      exact numbered

end Naming.Orderly

/-! The arms of a branch. -/

namespace Kind.Branch

theorem scoped_bindings (names : List String) (named : List (BranchArm × String)) :
    Scoped names (named.map bindArm) := by
  induction named generalizing names with
  | nil => exact Scoped.nil names
  | cons head tail induction =>
      exact (Scoped.bindFlag names head.2 _).append (induction _)

theorem scoped_alternative {names : List String} (otherwise : InstructionList)
    {named : List (BranchArm × String)} (areBound : ∀ arm ∈ named, arm.2 ∈ names) :
    (alternative otherwise named).Scoped names := by
  induction named with
  | nil =>
      rw [alternative]
      split
      · exact Scoped.done names
      · exact Scoped.otherwise (Scoped.statements [] otherwise)
  | cons head tail induction =>
      rw [List.forall_mem_cons] at areBound
      exact Scoped.elseIf areBound.1 (Scoped.statements [] head.1.actions) (induction areBound.2)

theorem scoped_assemble (names : List String) (otherwise : InstructionList)
    (named : List (BranchArm × String)) : Scoped names (assemble otherwise named) := by
  cases named with
  | nil =>
      rw [assemble]
      split
      · exact Scoped.nil names
      · exact Scoped.block names (Scoped.statements [] otherwise)
  | cons head tail =>
      have areBound : ∀ arm ∈ head :: tail,
          arm.2 ∈ names ++ BlockProgram.bound ((head :: tail).map bindArm) := by
        intro arm isArm
        rw [bound_bindings]
        exact List.mem_append_right _ (List.mem_map_of_mem isArm)
      rw [List.forall_mem_cons] at areBound
      exact (scoped_bindings names (head :: tail)).append (Scoped.conditional areBound.1
        (Scoped.statements [] head.1.actions) (scoped_alternative otherwise areBound.2))

theorem boundNames_alternative (otherwise : InstructionList)
    (named : List (BranchArm × String)) :
    boundNames (alternative otherwise named).rows = [] := by
  induction named with
  | nil =>
      rw [alternative]
      split
      · rfl
      · have inner : (Alternative.otherwise (InstructionList.statements otherwise)).rows =
            [.turns none] ++ rows (InstructionList.statements otherwise) ++ [.closes] := rfl
        rw [inner, boundNames_append, boundNames_append, boundNames_statements]
        rfl
  | cons head tail induction =>
      have inner : (alternative otherwise (head :: tail)).rows =
          [.turns (some head.2)] ++ rows (InstructionList.statements head.1.actions) ++
            (alternative otherwise tail).rows := rfl
      rw [inner, boundNames_append, boundNames_append, boundNames_statements, induction]
      rfl

/-- All flags of a branch are bound in front of it. -/
theorem boundNames_assemble (otherwise : InstructionList) (named : List (BranchArm × String)) :
    boundNames (rows (assemble otherwise named)) = named.map Prod.snd := by
  have bindings (arms : List (BranchArm × String)) :
      boundNames (rows (arms.map bindArm)) = arms.map Prod.snd := by
    induction arms with
    | nil => rfl
    | cons head tail induction => exact congrArg (head.2 :: ·) induction
  cases named with
  | nil =>
      rw [assemble]
      split
      · rfl
      · exact (boundNames_block _).trans (boundNames_statements otherwise)
  | cons head tail =>
      rw [assemble, rows_append, boundNames_append, boundNames_conditional, boundNames_statements,
        boundNames_alternative]
      exact (List.append_nil _).trans (bindings (head :: tail))

theorem numberedFrom_nameArms (arms : List BranchArm) (counts : Names) :
    NumberedFrom counts ((nameArms arms counts).1.map Prod.snd) (nameArms arms counts).2 := by
  induction arms generalizing counts with
  | nil => exact NumberedFrom.nil counts
  | cons head tail induction => exact (NumberedFrom.flag counts).append (induction _)

end Kind.Branch

theorem Naming.Orderly.branch (branch : Kind.Branch) : branch.program.Orderly where
  isScoped := fun _ names => Kind.Branch.scoped_assemble names branch.otherwise _
  isNumbered := by
    intro counts
    have numbered := Kind.Branch.numberedFrom_nameArms branch.arms counts
    rw [← Kind.Branch.boundNames_assemble branch.otherwise] at numbered
    exact numbered

/-! ## Forests -/

section

variable {settings : Settings} {population : Population}

mutual
theorem Node.orderly : ∀ (node : Node Kind.Builtin) (depth : Nat),
    (node.program settings population depth).Orderly
  | ⟨⟨id, behavior, disabled, folded, remembered⟩, subEvents⟩, depth => by
      rw [Node.program]
      cases disabled with
      | true => exact Naming.Orderly.nothing
      | false =>
          cases behavior with
          | standard standard =>
              exact ((Forest.orderly subEvents (depth + 1)).within _ _).standard standard
          | branch branch => exact Naming.Orderly.branch branch
          | repetition repetition =>
              exact ((Forest.orderly subEvents (depth + 2)).within _ _).repetition repetition
          | comment comment => exact Naming.Orderly.nothing
          | link link => exact Naming.Orderly.nothing

theorem Forest.orderly : ∀ (forest : List (Node Kind.Builtin)) (depth : Nat),
    (Forest.programs settings population depth forest).Orderly
  | [], _ => Naming.Orderly.nothing
  | head :: tail, depth => by
      have first : (head.program settings population depth).Orderly := Node.orderly head depth
      have rest : (Forest.programs settings population depth tail).Orderly :=
        Forest.orderly tail depth
      constructor
      · intro counts names
        exact ((first.isScoped counts names).withHooks _ _).append (rest.isScoped _ _)
      · intro counts
        have numbered := (first.isNumbered counts).append (rest.isNumbered _)
        rw [← boundNames_withHooks settings.profiling.emitHooks (head.event.sourceId population),
          ← boundNames_append, ← rows_append] at numbered
        exact numbered
end

theorem Forest.orderly_program (forest : Forest Kind.Builtin) :
    Scoped [] (Forest.program settings population forest) ∧
      ∃ after, NumberedFrom {} (boundNames (rows (Forest.program settings population forest)))
        after :=
  have orderly := (Forest.orderly forest 0).within settings.limits.maxNestingDepth.toNat 0
  ⟨orderly.isScoped {} [], _, orderly.isNumbered {}⟩

end

/-- Generating a plain forest gives a text, and a source in which the lines of that text are all
those between the header and the last brace. In these lines the names bound are the flags and the
counters, each numbered from zero without a gap; every name a header uses was bound before it in
the block it stands in; and the names bound outside of all nested blocks are the ones left in the
scope. -/
theorem Forest.generate_names (settings : Settings) (population : Population)
    {forest : Forest Kind.Builtin} (plain : Forest.IsPlain forest) (state : Codegen.ProgramState) :
    ∃ (text : String) (emission : Codegen.Emission Codegen.ProgramState) (flags counters : Nat),
      Forest.generate (Codegen.Program.generator settings population) forest
          { generator := state } = (text, emission) ∧
      (Text.pieces (Codegen.Program.generate settings population forest state).1.toList).map
          Text.trimStart =
        Text.trimmedLines (Codegen.Program.head settings.output).toList ++
          Text.trimmedLines text.toList ++ ["\x7d".toList, []] ∧
      (boundNames ((Text.trimmedLines text.toList).map readRow)).filter isFlag =
        (List.range flags).map (SharedScope.numbered "condition") ∧
      (boundNames ((Text.trimmedLines text.toList).map readRow)).filter (!isFlag ·) =
        (List.range counters).map (SharedScope.numbered "repeat") ∧
      scan [[]] ((Text.trimmedLines text.toList).map readRow) =
        some [emission.scope.declared] := by
  have printed := Forest.generate_eq_print settings population forest state
  have declared := (Forest.generate_leaves settings population forest state).1
  have wellFormed : WellFormed (Forest.program settings population forest) :=
    plain.wellFormed_program
  have orderly : Scoped [] (Forest.program settings population forest) ∧
      ∃ after, NumberedFrom {} (boundNames (rows (Forest.program settings population forest)))
        after := Forest.orderly_program forest
  rcases orderly with ⟨isScoped, after, flags, counters, -, areFlags, areCounters⟩
  rcases emitted : Forest.generate (Codegen.Program.generator settings population) forest
    { generator := state } with ⟨text, emission⟩
  rw [emitted] at printed declared
  have readAs : (Text.trimmedLines text.toList).map readRow =
      rows (Forest.program settings population forest) := by
    rw [show text = print (Forest.program settings population forest) from printed]
    exact readRows_print wellFormed
  refine ⟨text, emission, flags, counters, rfl, ?source, ?flags, ?counters, ?blocks⟩
  case source =>
    rw [Codegen.Program.map_trimStart_generate, ← toList_print, List.append_assoc,
      show text = print (Forest.program settings population forest) from printed]
    rfl
  case flags =>
    rw [readAs, areFlags, List.range_eq_range']
  case counters =>
    rw [readAs, areCounters, List.range_eq_range']
  case blocks =>
    rw [readAs, isScoped [], List.nil_append, ← declared]

/-- Three rings at the door, each followed by a look at who is there. -/
def doorbell : Forest Kind.Builtin :=
  [{ event :=
       { id := 1
         behavior := .repetition { count := ⟨"3"⟩, actions := [{ name := "ring" }] } }
     subEvents :=
       [{ event :=
            { id := 2
              behavior := .branch
                { arms :=
                    [{ conditions := [{ name := "isFriend" }]
                       actions := [{ name := "open" }] }]
                  otherwise := [{ name := " " }] } } }] }]

theorem doorbell_isPlain : Forest.IsPlain doorbell := by
  have called (name : String) (identifier : Text.isBlankText name = false → IsIdentifier name) :
      Instruction.AllPlain [{ name }] := ⟨⟨identifier, List.forall_mem_nil _, trivial⟩, trivial⟩
  have bell : (Kind.Builtin.repetition
      { count := ⟨"3"⟩, actions := [{ name := "ring" }] }).IsPlain := by
    refine ⟨?_, ?_, ?_⟩
    · exact List.forall_mem_singleton.mpr trivial
    · exact List.forall_mem_singleton.mpr
        (called "ring" fun _ => ⟨by decide, _, _, rfl, by decide⟩)
    · rintro repetition same
      cases same
      rw [IsOneLine]
      decide
  have look : (Kind.Builtin.branch
      { arms := [{ conditions := [{ name := "isFriend" }], actions := [{ name := "open" }] }]
        otherwise := [{ name := " " }] }).IsPlain := by
    refine ⟨?_, ?_, by rintro _ ⟨⟩⟩
    · exact List.forall_mem_singleton.mpr
        (called "isFriend" fun _ => ⟨by decide, _, _, rfl, by decide⟩)
    · refine List.forall_mem_cons.mpr ⟨?_, List.forall_mem_singleton.mpr ?_⟩
      · exact called "open" fun _ => ⟨by decide, _, _, rfl, by decide⟩
      · exact called " " fun named => absurd named (by decide)
  exact ⟨⟨bell, ⟨look, trivial⟩, trivial⟩, trivial⟩

/-- The counter is bound in front of the loop. Both flags are bound inside of it, where the scope
of the whole program does not see them. -/
theorem doorbell_names :
    ∃ (text : String) (flags counters : Nat),
      (Forest.generate (Codegen.Program.generator {} {}) doorbell
        { generator := ({} : Codegen.ProgramState) }).1 = text ∧
      (boundNames ((Text.trimmedLines text.toList).map readRow)).filter isFlag =
        (List.range flags).map (SharedScope.numbered "condition") ∧
      (boundNames ((Text.trimmedLines text.toList).map readRow)).filter (!isFlag ·) =
        (List.range counters).map (SharedScope.numbered "repeat") ∧
      scan [[]] ((Text.trimmedLines text.toList).map readRow) = some [["repeat_0"]] := by
  rcases Forest.generate_names {} {} doorbell_isPlain {} with
    ⟨text, emission, flags, counters, generated, -, areFlags, areCounters, scanned⟩
  have declared : (Forest.generate (Codegen.Program.generator {} {}) doorbell
      { generator := ({} : Codegen.ProgramState) }).2.scope.declared = ["repeat_0"] := by
    decide +kernel
  rw [generated] at declared
  rw [declared] at scanned
  exact ⟨text, flags, counters, congrArg Prod.fst generated, areFlags, areCounters, scanned⟩

end EventSheet
