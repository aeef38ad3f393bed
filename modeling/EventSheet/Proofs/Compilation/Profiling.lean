import EventSheet.Proofs.Compilation.Effects
import EventSheet.Proofs.Compilation.Hooks
namespace EventSheet

/-! # Programs with and without hooks

Hooks take part in neither the names nor the shape of a program. So the program of a forest with
hooks has the lines of the one without, and a pair of hooks around those of every event that comes
to some statements. -/

open BlockProgram Codegen

/-- The settings with hooks switched on or off. -/
def Settings.withHooks (settings : Settings) (emitHooks : Bool) : Settings :=
  { settings with profiling := { settings.profiling with emitHooks } }

/-! ## Events that produce code -/

/-- The event is enabled and of a kind that comes to statements: a branch only with an arm or
actions otherwise, a repetition only with a count. -/
def Event.producesCode (event : Event Kind.Builtin) : Bool :=
  !event.disabled &&
    match event.behavior with
    | .standard _ => true
    | .branch branch => !(branch.arms.isEmpty && branch.otherwise.isEmpty)
    | .repetition repetition => !repetition.count.isEmpty
    | .comment _ | .link _ => false

theorem Event.producesCode_of_generatesSubEvents {event : Event Kind.Builtin}
    (generates : event.generatesSubEvents = true) : event.producesCode = true := by
  rcases event with ⟨id, behavior, disabled, folded, remembered⟩
  cases behavior with
  | standard _ => exact generates
  | branch _ => simp [generatesSubEvents] at generates
  | repetition _ => exact generates
  | comment _ => simp [generatesSubEvents] at generates
  | link _ => simp [generatesSubEvents] at generates

theorem Kind.Branch.isEmpty_assemble (otherwise : InstructionList)
    (named : List (BranchArm × String)) :
    (assemble otherwise named).isEmpty = (named.isEmpty && otherwise.isEmpty) := by
  cases named with
  | nil => cases otherwise <;> rfl
  | cons head tail => rfl

theorem Kind.Repetition.isEmpty_program (repetition : Repetition) (subEvents : Naming BlockProgram)
    (names : Names) :
    (repetition.program subEvents names).1.isEmpty = repetition.count.isEmpty := by
  rw [program]
  split
  · next uncounted => exact uncounted.symm
  · next counted => exact ((Bool.not_eq_true _).mp counted).symm

theorem Node.isEmpty_program {settings : Settings} {population : Population}
    (node : Node Kind.Builtin) (depth : Nat) (names : Names) :
    (node.program settings population depth names).1.isEmpty = !node.event.producesCode := by
  rcases node with ⟨⟨id, behavior, disabled, folded, remembered⟩, subEvents⟩
  rw [Node.program]
  cases disabled with
  | true => rfl
  | false =>
      cases behavior with
      | standard _ => rfl
      | branch branch =>
          have arms : (Kind.Branch.nameArms branch.arms names).1.isEmpty = branch.arms.isEmpty := by
            rw [← List.isEmpty_map, Kind.Branch.map_fst_nameArms]
          have assembled := Kind.Branch.isEmpty_assemble branch.otherwise
            (Kind.Branch.nameArms branch.arms names).1
          rw [arms] at assembled
          exact assembled.trans (Bool.not_not _).symm
      | repetition repetition =>
          exact (repetition.isEmpty_program _ names).trans (Bool.not_not _).symm
      | comment _ => rfl
      | link _ => rfl

/-- The code generated for a node is empty unless its event produces code. -/
theorem Node.isEmpty_generate (settings : Settings) (population : Population)
    (node : Node Kind.Builtin) (emission : Emission ProgramState) :
    (node.generate (Program.generator settings population) emission).1.isEmpty =
      !node.event.producesCode := by
  have emits : Emits emission.scope.depth (node.generate (Program.generator settings population))
      _ (Prints "") := Node.emits emission.scope.depth node
  rcases emits emission rfl with ⟨printed, -, -⟩
  rw [show _ = printNested "" _ from printed, isEmpty_printNested, Node.isEmpty_program]

/-! ## Hooks between statements -/

/-- The second program is the first with hooks put in between its lines. -/
structure BlockProgram.Hooked (plain : BlockProgram) (hooks : List Hook) (hooked : BlockProgram) :
    Prop where
  weaves : Weaves (lines plain) hooks (lines hooked)
  isEmpty_eq : hooked.isEmpty = plain.isEmpty

namespace BlockProgram.Hooked

variable {plain hooked others otherHooked : BlockProgram} {hooks more : List Hook}

theorem refl (program : BlockProgram) : Hooked program [] program where
  weaves := Weaves.refl _
  isEmpty_eq := rfl

theorem append (first : Hooked plain hooks hooked) (second : Hooked others more otherHooked) :
    Hooked (plain ++ others) (hooks ++ more) (hooked ++ otherHooked) where
  weaves := by
    rw [lines_append, lines_append]
    exact first.weaves.append second.weaves
  isEmpty_eq := by
    have heads := first.isEmpty_eq
    have tails := second.isEmpty_eq
    rw [Bool.eq_iff_iff, List.isEmpty_iff, List.isEmpty_iff] at heads tails ⊢
    rw [List.append_eq_nil_iff, List.append_eq_nil_iff, heads, tails]

/-- A header in front of a body and a closing brace behind it. -/
theorem enclose (inner : Hooked plain hooks hooked) (header : List Char) :
    Weaves (header :: lines plain ++ ["\x7d".toList] ++ []) hooks
      (header :: lines hooked ++ ["\x7d".toList] ++ []) := by
  have enclosed := (Weaves.line header inner.weaves).append (Weaves.refl ["\x7d".toList])
  rw [List.append_nil] at enclosed
  rw [List.append_nil, List.append_nil]
  exact enclosed

theorem nested (inner : Hooked plain hooks hooked) : Hooked plain.nested hooks hooked.nested := by
  rw [BlockProgram.nested, BlockProgram.nested, inner.isEmpty_eq]
  split
  · next empty =>
      -- nothing was put into a program without lines
      have isEmpty := inner.isEmpty_eq.trans empty
      rw [List.isEmpty_iff] at empty isEmpty
      have weaves := inner.weaves
      rw [empty, isEmpty] at weaves
      cases weaves
      exact refl []
  · exact ⟨inner.enclose _, rfl⟩

theorem loop (inner : Hooked plain hooks hooked) (counter : String) :
    Hooked [.loop counter plain] hooks [.loop counter hooked] where
  weaves := inner.enclose _
  isEmpty_eq := rfl

theorem conditional (inner : Hooked plain hooks hooked) (flag : String) :
    Hooked [.conditional flag plain .done] hooks [.conditional flag hooked .done] where
  weaves := inner.enclose _
  isEmpty_eq := rfl

theorem lines_hook (hook : Hook) : lines [BlockProgram.hook hook.name hook.node] = [hook.line] := by
  have printed : (Statement.evaluate (.call hook.name [Nat.repr hook.node] [])).lines =
      [hook.line] := by
    simp [Statement.lines, Operand.print, Operand.printAll, Hook.line]
  exact congrArg (· ++ []) printed

/-- A pair of hooks around statements. -/
theorem around (inner : Hooked plain hooks hooked) (node : NodeId) (some : plain.isEmpty = false) :
    Hooked (plain.withHooks false node) (.begins node :: hooks ++ [.ends node])
      (hooked.withHooks true node) := by
  have begins := lines_hook (.begins node)
  have ends := lines_hook (.ends node)
  rw [withHooks, withHooks, some, inner.isEmpty_eq.trans some]
  refine ⟨?_, some.symm⟩
  have woven := ((Weaves.single (.begins node)).append inner.weaves).append
    (Weaves.single (.ends node))
  rw [List.nil_append, List.append_nil, ← begins, ← ends, ← lines_append, ← lines_append] at woven
  exact woven

theorem around_nothing (inner : Hooked plain hooks hooked) (node : NodeId)
    (none : plain.isEmpty = true) :
    Hooked (plain.withHooks false node) [] (hooked.withHooks true node) := by
  rw [withHooks, withHooks, none, inner.isEmpty_eq.trans none]
  exact refl []

end BlockProgram.Hooked

/-! ## Hooks of events -/

/-- The second program is the first with a pair of hooks for each of the nodes, and names are
handed out as without hooks. -/
structure Naming.HookedAround (plain hooked : Naming BlockProgram) (nodes : List NodeId) :
    Prop where
  names_eq : ∀ names, (hooked names).2 = (plain names).2
  woven : ∀ names, ∃ hooks, Nested hooks nodes ∧ Hooked (plain names).1 hooks (hooked names).1

namespace Naming.HookedAround

variable {plain hooked : Naming BlockProgram} {nodes : List NodeId}

theorem refl (naming : Naming BlockProgram) : HookedAround naming naming [] where
  names_eq := fun _ => rfl
  woven := fun _ => ⟨[], Nested.nil, Hooked.refl _⟩

theorem standard (inner : HookedAround plain hooked nodes) (standard : Kind.Standard) :
    HookedAround (standard.program plain) (standard.program hooked) nodes where
  names_eq := fun names => inner.names_eq (Naming.flag names).2
  woven := by
    intro names
    rcases inner.woven (Naming.flag names).2 with ⟨hooks, nested, isHooked⟩
    have body := (Hooked.refl (InstructionList.statements standard.actions)).append isHooked.nested
    exact ⟨hooks, nested, (Hooked.refl [.bindFlag (Naming.flag names).1
      (InstructionList.operands standard.conditions)]).append
        (body.conditional (Naming.flag names).1)⟩

theorem repetition (inner : HookedAround plain hooked nodes) {repetition : Kind.Repetition}
    (counted : repetition.count.isEmpty = false) :
    HookedAround (repetition.program plain) (repetition.program hooked) nodes := by
  have body := inner.standard ⟨repetition.conditions, repetition.actions⟩
  rw [Kind.Repetition.program, Kind.Repetition.program, counted]
  constructor
  · exact fun names => body.names_eq (Naming.counter names).2
  · intro names
    rcases body.woven (Naming.counter names).2 with ⟨hooks, nested, isHooked⟩
    exact ⟨hooks, nested, (Hooked.refl [.bindCounter (Naming.counter names).1
      repetition.count.trimmed]).append (isHooked.loop (Naming.counter names).1)⟩

/-- An event in front of others. What produces no code gets no hooks. -/
theorem cons {rest restHooked : Naming BlockProgram} {behind : List NodeId} {produces : Bool}
    (first : HookedAround plain hooked nodes) (others : HookedAround rest restHooked behind)
    (node : NodeId) (empty : ∀ names, (plain names).1.isEmpty = !produces) :
    HookedAround
      (do return (← plain).withHooks false node ++ (← rest))
      (do return (← hooked).withHooks true node ++ (← restHooked))
      ((if produces then node :: nodes else []) ++ behind) where
  names_eq := by
    intro names
    change (restHooked (hooked names).2).2 = (rest (plain names).2).2
    rw [first.names_eq]
    exact others.names_eq _
  woven := by
    intro names
    rcases first.woven names with ⟨hooks, nested, isHooked⟩
    rcases others.woven (plain names).2 with ⟨more, moreNested, restWoven⟩
    have restIsHooked : Hooked (rest (plain names).2).1 more (restHooked (hooked names).2).1 := by
      rwa [first.names_eq]
    have isEmpty := empty names
    cases produces with
    | true => exact ⟨_, (nested.enclose node).append moreNested,
        (isHooked.around node isEmpty).append restIsHooked⟩
    | false =>
        refine ⟨more, moreNested, ?_⟩
        exact (isHooked.around_nothing node isEmpty).append restIsHooked

end Naming.HookedAround

/-! ## Hooks of forests -/

/-- The nodes whose code is generated and not empty, with the events around them. -/
def Codegen.Program.producingLineages (settings : Settings) (ancestors : List (Event Kind.Builtin))
    (forest : List (Node Kind.Builtin)) : List (Lineage Kind.Builtin) :=
  (reachedLineages settings ancestors forest).filter fun lineage => lineage.node.event.producesCode

namespace Codegen.Program

variable {settings : Settings} {population : Population} {ancestors : List (Event Kind.Builtin)}

theorem producingLineages_eq_nil
    (stopped : ¬ (ancestors.all Event.generatesSubEvents = true ∧
      Event.blocks ancestors ≤ settings.limits.maxNestingDepth.toNat))
    (forest : List (Node Kind.Builtin)) : producingLineages settings ancestors forest = [] := by
  rw [producingLineages, reachedLineages_eq_nil stopped]
  rfl

theorem producingLineages_below_eq_nil {event : Event Kind.Builtin}
    (stops : event.generatesSubEvents = false) (subEvents : List (Node Kind.Builtin)) :
    producingLineages settings (event :: ancestors) subEvents = [] := by
  rw [producingLineages, reachedLineages_below_eq_nil stops]
  rfl

theorem producingLineages_cons (passed : ancestors.all Event.generatesSubEvents = true)
    (within : Event.blocks ancestors ≤ settings.limits.maxNestingDepth.toNat)
    (head : Node Kind.Builtin) (tail : List (Node Kind.Builtin)) :
    producingLineages settings ancestors (head :: tail) =
      (if head.event.producesCode then
        ⟨ancestors, head⟩ :: producingLineages settings (head.event :: ancestors) head.subEvents
      else []) ++ producingLineages settings ancestors tail := by
  have whole := reachedLineages_cons passed within head tail
  rw [producingLineages, whole, List.cons_append, List.filter_cons, List.filter_append]
  cases produces : head.event.producesCode with
  | true => rfl
  | false =>
      have stops : head.event.generatesSubEvents = false := by
        rw [Bool.eq_false_iff]
        intro passes
        rw [Event.producesCode_of_generatesSubEvents passes] at produces
        cases produces
      rw [reachedLineages_below_eq_nil stops]
      rfl

variable (settings population) in
/-- The events that those nodes stand for. -/
def hookedNodes (ancestors : List (Event Kind.Builtin)) (forest : List (Node Kind.Builtin)) :
    List NodeId :=
  (producingLineages settings ancestors forest).map fun lineage =>
    lineage.node.event.sourceId population

theorem hookedNodes_cons (passed : ancestors.all Event.generatesSubEvents = true)
    (within : Event.blocks ancestors ≤ settings.limits.maxNestingDepth.toNat)
    (head : Node Kind.Builtin) (tail : List (Node Kind.Builtin)) :
    hookedNodes settings population ancestors (head :: tail) =
      (if head.event.producesCode then
        head.event.sourceId population ::
          hookedNodes settings population (head.event :: ancestors) head.subEvents
      else []) ++ hookedNodes settings population ancestors tail := by
  rw [hookedNodes, producingLineages_cons passed within, List.map_append]
  cases head.event.producesCode <;> rfl

end Codegen.Program

section

variable (settings : Settings) (population : Population)

/-- The programs of nodes with and without hooks, when the nodes lie in few enough blocks. -/
def HookedForest (ancestors : List (Event Kind.Builtin)) (forest : List (Node Kind.Builtin)) :
    Prop :=
  ancestors.all Event.generatesSubEvents = true →
    Event.blocks ancestors ≤ settings.limits.maxNestingDepth.toNat →
    Naming.HookedAround
      (Forest.programs (settings.withHooks false) population (Event.blocks ancestors) forest)
      (Forest.programs (settings.withHooks true) population (Event.blocks ancestors) forest)
      (Program.hookedNodes settings population ancestors forest)

variable {settings population}

theorem HookedForest.within {ancestors : List (Event Kind.Builtin)}
    {forest : List (Node Kind.Builtin)}
    (isHooked : HookedForest settings population ancestors forest)
    (passed : ancestors.all Event.generatesSubEvents = true) :
    Naming.HookedAround
      (Naming.within settings.limits.maxNestingDepth.toNat (Event.blocks ancestors)
        (Forest.programs (settings.withHooks false) population (Event.blocks ancestors) forest))
      (Naming.within settings.limits.maxNestingDepth.toNat (Event.blocks ancestors)
        (Forest.programs (settings.withHooks true) population (Event.blocks ancestors) forest))
      (Program.hookedNodes settings population ancestors forest) := by
  rw [Naming.within, Naming.within]
  by_cases tooDeep : settings.limits.maxNestingDepth.toNat < Event.blocks ancestors
  · rw [if_pos tooDeep, if_pos tooDeep, Program.hookedNodes, Program.producingLineages_eq_nil
      fun passes => Nat.not_le_of_lt tooDeep passes.2]
    exact Naming.HookedAround.refl _
  · rw [if_neg tooDeep, if_neg tooDeep]
    exact isHooked passed (Nat.le_of_not_lt tooDeep)

theorem HookedForest.node {event : Event Kind.Builtin} {ancestors : List (Event Kind.Builtin)}
    {subEvents : List (Node Kind.Builtin)}
    (isHooked : HookedForest settings population (event :: ancestors) subEvents)
    (passed : ancestors.all Event.generatesSubEvents = true) :
    Naming.HookedAround
      (Node.program (settings.withHooks false) population (Event.blocks ancestors)
        ⟨event, subEvents⟩)
      (Node.program (settings.withHooks true) population (Event.blocks ancestors)
        ⟨event, subEvents⟩)
      (Program.hookedNodes settings population (event :: ancestors) subEvents) := by
  have blocks := Event.blocks_cons event ancestors
  have stopped (stops : event.generatesSubEvents = false) :
      Program.hookedNodes settings population (event :: ancestors) subEvents = [] := by
    rw [Program.hookedNodes, Program.producingLineages_below_eq_nil stops]
    rfl
  have passes (generates : event.generatesSubEvents = true) :
      (event :: ancestors).all Event.generatesSubEvents = true := by
    rw [List.all_cons, generates, passed]
    rfl
  rw [Node.program, Node.program]
  rcases event with ⟨id, behavior, disabled, folded, remembered⟩
  cases disabled with
  | true =>
      rw [stopped rfl]
      exact Naming.HookedAround.refl _
  | false =>
      cases behavior with
      | standard standard =>
          have inner := isHooked.within (passes rfl)
          rw [blocks] at inner
          exact inner.standard standard
      | branch branch =>
          rw [stopped rfl]
          exact Naming.HookedAround.refl _
      | repetition repetition =>
          cases uncounted : repetition.count.isEmpty with
          | true =>
              rw [stopped (congrArg (!·) uncounted)]
              have nothing (subEvents : Naming BlockProgram) :
                  repetition.program subEvents = pure [] := by
                rw [Kind.Repetition.program, if_pos uncounted]
              dsimp only
              rw [nothing, nothing]
              exact Naming.HookedAround.refl _
          | false =>
              have inner := isHooked.within (passes (congrArg (!·) uncounted))
              rw [blocks] at inner
              exact inner.repetition uncounted
      | comment comment =>
          rw [stopped rfl]
          exact Naming.HookedAround.refl _
      | link link =>
          rw [stopped rfl]
          exact Naming.HookedAround.refl _

mutual
theorem Node.hooked : ∀ (node : Node Kind.Builtin) (ancestors : List (Event Kind.Builtin)),
    ancestors.all Event.generatesSubEvents = true →
    Naming.HookedAround
      (node.program (settings.withHooks false) population (Event.blocks ancestors))
      (node.program (settings.withHooks true) population (Event.blocks ancestors))
      (Program.hookedNodes settings population (node.event :: ancestors) node.subEvents)
  | ⟨event, subEvents⟩, ancestors, passed =>
      (Forest.hooked subEvents (event :: ancestors)).node passed

theorem Forest.hooked : ∀ (forest : List (Node Kind.Builtin))
    (ancestors : List (Event Kind.Builtin)), HookedForest settings population ancestors forest
  | [], _, _, _ => Naming.HookedAround.refl _
  | head :: tail, ancestors, passed, within => by
      have first := Node.hooked head ancestors passed
      have rest := Forest.hooked tail ancestors passed within
      rw [Program.hookedNodes_cons passed within]
      exact first.cons rest (head.event.sourceId population)
        (fun names => head.isEmpty_program (Event.blocks ancestors) names)
end

end

end EventSheet
