import EventSheet.Proofs.Compilation.Recording
namespace EventSheet

/-! # Composition

In which order generating an event calls on the generator, and in a scope of which depth. The order
is the same whatever the generator does when it is called, as long as it compiles a forest node by
node in the scope it is given. -/

open Codegen

/-! ## Generators that go through a forest in order -/

/-- A generator that compiles a forest by generating each of its nodes in turn, in the scope given
with the forest. Before, between and after them it does what it likes. -/
structure Codegen.InOrder (β σ : Type) extends Emitter σ where
  /-- What it remembers of a forest while it goes through it. -/
  Working : Type
  start : Forest β → Emit σ Working
  resume : Working → Node β → String → Emit σ Working
  finish : Working → Emit σ String

/-- What an event calls on its generator for. -/
inductive Codegen.Request (β : Type)
  | conditions (list : InstructionList)
  | actions (list : InstructionList)
  | forest (forest : Forest β)
  | report (diagnostic : Diagnostic)

/-- The scope is at the same depth afterwards, and has the same names from around it. -/
def Codegen.Emit.KeepsLevel {σ α : Type} (action : Emit σ α) : Prop :=
  ∀ emission, (action emission).2.scope.depth = emission.scope.depth ∧
    (action emission).2.scope.inherited = emission.scope.inherited

namespace Codegen.InOrder

variable {β σ : Type}

def walk (generator : InOrder β σ) (working : generator.Working) :
    List (Node β × Emit σ String) → Emit σ String
  | [] => generator.finish working
  | (node, generate) :: rest => do
      let code ← generate
      let working ← generator.resume working node code
      walk generator working rest

def toGenerator (generator : InOrder β σ) : Generator β σ where
  toEmitter := generator.toEmitter
  forest := fun nodes => do
    let working ← generator.start (nodes.map Prod.fst)
    generator.walk working nodes

/-- Requests, each with the depth of the scope it is made in. -/
abbrev Heard (β : Type) := List (Request β × Nat)

/-- Add a request to those heard. -/
def hear (request : Request β) : Emit (σ × Heard β) Unit := fun emission =>
  ((), { emission with
    generator :=
      (emission.generator.1, emission.generator.2 ++ [(request, emission.scope.depth)]) })

/-- A generator that does the same and lists the requests it gets. -/
def listening (generator : InOrder β σ) : InOrder β (σ × Heard β) where
  conditions := fun list => do
    hear (.conditions list)
    Emit.beside (generator.conditions list)
  actions := fun list => do
    hear (.actions list)
    Emit.beside (generator.actions list)
  report := fun diagnostic => do
    hear (.report diagnostic)
    Emit.beside (generator.report diagnostic)
  indentUnit := generator.indentUnit
  Working := generator.Working
  start := fun forest => do
    hear (.forest forest)
    Emit.beside (generator.start forest)
  resume := fun working node code => Emit.beside (generator.resume working node code)
  finish := fun working => Emit.beside (generator.finish working)

/-- None of the generator's own work moves the scope to another level. -/
structure KeepsLevels (generator : InOrder β σ) : Prop where
  conditions : ∀ list, (generator.conditions list).KeepsLevel
  actions : ∀ list, (generator.actions list).KeepsLevel
  report : ∀ diagnostic, (generator.report diagnostic).KeepsLevel
  start : ∀ forest, (generator.start forest).KeepsLevel
  resume : ∀ working node code, (generator.resume working node code).KeepsLevel
  finish : ∀ working, (generator.finish working).KeepsLevel

end Codegen.InOrder

/-! ## The order -/

namespace Codegen.Request

/-- Conditions, actions, and then the sub-events, one block deeper, if there are any. Their own
requests follow that for their forest. -/
def ofBlock {β : Type} (depth : Nat) (conditions actions : InstructionList)
    (subEvents : Forest β) (below : InOrder.Heard β) : InOrder.Heard β :=
  (.conditions conditions, depth) :: (.actions actions, depth) ::
    if subEvents.isEmpty then [] else (.forest subEvents, depth + 1) :: below

/-- All conditions before any actions, and the actions of `otherwise` if there are any. -/
def ofBranch {β : Type} (depth : Nat) (branch : Kind.Branch) : InOrder.Heard β :=
  branch.arms.map (fun arm => (.conditions arm.conditions, depth)) ++
    branch.arms.map (fun arm => (.actions arm.actions, depth)) ++
    if branch.otherwise.isEmpty then [] else [(.actions branch.otherwise, depth)]

end Codegen.Request

open Codegen.Request in
mutual
/-- What generating a node in a block at a depth calls on the generator for. -/
def Node.requests (depth : Nat) : Node Kind.Builtin → InOrder.Heard Kind.Builtin
  | ⟨event, subEvents⟩ =>
      if event.disabled then []
      else
        match event.behavior with
        | .standard standard =>
            ofBlock depth standard.conditions standard.actions subEvents
              (Forest.requests (depth + 1) subEvents)
        | .branch branch => ofBranch depth branch
        | .repetition repetition =>
            if repetition.count.isEmpty then [(.report Kind.Repetition.withoutCount, depth)]
            else
              ofBlock (depth + 1) repetition.conditions repetition.actions subEvents
                (Forest.requests (depth + 2) subEvents)
        | .comment _ | .link _ => []

def Forest.requests (depth : Nat) : List (Node Kind.Builtin) → InOrder.Heard Kind.Builtin
  | [] => []
  | head :: tail => head.requests depth ++ Forest.requests depth tail
end

/-! ## Work that keeps the level -/

namespace Codegen.Emit.KeepsLevel

variable {σ α γ : Type}

theorem pure (answer : α) : KeepsLevel (Pure.pure answer : Emit σ α) :=
  fun _ => ⟨rfl, rfl⟩

theorem bind {action : Emit σ α} {next : α → Emit σ γ} (first : action.KeepsLevel)
    (rest : ∀ answer, (next answer).KeepsLevel) : KeepsLevel (action >>= next) := by
  intro emission
  rcases first emission with ⟨depth, inherited⟩
  rcases rest (action emission).1 (action emission).2 with ⟨later, laterInherited⟩
  exact ⟨later.trans depth, laterInherited.trans inherited⟩

theorem uniqueName (stem : String) : KeepsLevel (Emit.uniqueName (σ := σ) stem) :=
  fun _ => ⟨rfl, rfl⟩

theorem onGenerator (change : σ → σ) : KeepsLevel (Emit.onGenerator change) :=
  fun _ => ⟨rfl, rfl⟩

theorem nested (action : Emit σ α) : KeepsLevel (Emit.nested action) :=
  fun _ => ⟨rfl, rfl⟩

theorem declare (name : String) : KeepsLevel (Emit.declare (σ := σ) name) := by
  intro emission
  have declared : (Emit.declare name emission).2.scope =
    (emission.scope.declare emission.shared name).2 := rfl
  rw [declared, Scope.declare]
  split <;> exact ⟨rfl, rfl⟩

end Codegen.Emit.KeepsLevel

/-! ## Listening -/

/-- In a block at a depth, `listener` does what `action` does, and hears the requests expected. That
they are made at the depths expected, and the block is left at its level, needs what is `steady`. -/
def Hears {β σ α : Type} (steady : Prop) (depth : Nat) (listener : Emit (σ × InOrder.Heard β) α)
    (action : Emit σ α) (expected : InOrder.Heard β) : Prop :=
  ∀ (emission : Emission σ) (before : InOrder.Heard β), ∃ heard : InOrder.Heard β,
    listener (emission.beside before) =
      ((action emission).1, (action emission).2.beside (before ++ heard)) ∧
    heard.map Prod.fst = expected.map Prod.fst ∧
    (steady → emission.scope.depth = depth →
      heard = expected ∧ (action emission).2.scope.depth = depth ∧
        (action emission).2.scope.inherited = emission.scope.inherited)

namespace Hears

variable {β σ α γ : Type} {steady : Prop} {depth : Nat}

theorem beside {action : Emit σ α} (keeps : steady → action.KeepsLevel) :
    Hears (β := β) steady depth (Emit.beside action) action [] := by
  intro emission before
  refine ⟨[], ?_, rfl, fun isSteady atDepth => ?_⟩
  · rw [List.append_nil]
    rfl
  · rcases keeps isSteady emission with ⟨sameDepth, sameNames⟩
    exact ⟨rfl, sameDepth.trans atDepth, sameNames⟩

theorem pure (answer : α) :
    Hears (β := β) (σ := σ) steady depth (Pure.pure answer) (Pure.pure answer) [] :=
  beside fun _ => .pure answer

theorem uniqueName (stem : String) :
    Hears (β := β) (σ := σ) steady depth (Emit.uniqueName stem) (Emit.uniqueName stem) [] :=
  beside fun _ => .uniqueName stem

theorem declare (name : String) :
    Hears (β := β) (σ := σ) steady depth (Emit.declare name) (Emit.declare name) [] :=
  beside fun _ => .declare name

/-- What comes next may rely on its answer being one of the action's. -/
theorem bind_answer {listener : Emit (σ × InOrder.Heard β) α} {action : Emit σ α}
    {next : α → Emit (σ × InOrder.Heard β) γ} {nextAction : α → Emit σ γ}
    {expected more : InOrder.Heard β} (first : Hears steady depth listener action expected)
    (rest : ∀ emission, Hears steady depth (next (action emission).1)
      (nextAction (action emission).1) more) :
    Hears steady depth (listener >>= next) (action >>= nextAction) (expected ++ more) := by
  intro emission before
  rcases first emission before with ⟨heard, same, order, level⟩
  rcases rest emission (action emission).2 (before ++ heard) with
    ⟨later, laterSame, laterOrder, laterLevel⟩
  refine ⟨heard ++ later, ?_, ?_, fun isSteady atDepth => ?_⟩
  · rw [← List.append_assoc]
    simp only [Bind.bind, StateT.bind, same]
    exact laterSame
  · rw [List.map_append, List.map_append, order, laterOrder]
  · rcases level isSteady atDepth with ⟨exact, sameDepth, sameNames⟩
    rcases laterLevel isSteady sameDepth with ⟨laterExact, laterDepth, laterNames⟩
    exact ⟨by rw [exact, laterExact], laterDepth, laterNames.trans sameNames⟩

theorem bind {listener : Emit (σ × InOrder.Heard β) α} {action : Emit σ α}
    {next : α → Emit (σ × InOrder.Heard β) γ} {nextAction : α → Emit σ γ}
    {expected more : InOrder.Heard β} (first : Hears steady depth listener action expected)
    (rest : ∀ answer, Hears steady depth (next answer) (nextAction answer) more) :
    Hears steady depth (listener >>= next) (action >>= nextAction) (expected ++ more) :=
  first.bind_answer fun emission => rest (action emission).1

/-- What makes no request goes before those that are made. -/
theorem following {listener : Emit (σ × InOrder.Heard β) α} {action : Emit σ α}
    {next : α → Emit (σ × InOrder.Heard β) γ} {nextAction : α → Emit σ γ}
    {expected : InOrder.Heard β} (first : Hears steady depth listener action [])
    (rest : ∀ answer, Hears steady depth (next answer) (nextAction answer) expected) :
    Hears steady depth (listener >>= next) (action >>= nextAction) expected :=
  first.bind rest

theorem map {listener : Emit (σ × InOrder.Heard β) α} {action : Emit σ α}
    {expected : InOrder.Heard β} (first : Hears steady depth listener action expected)
    (change : α → γ) :
    Hears steady depth (listener >>= fun answer => Pure.pure (change answer))
      (action >>= fun answer => Pure.pure (change answer)) expected := by
  rw [← List.append_nil expected]
  exact first.bind fun answer => pure (change answer)

theorem nested {listener : Emit (σ × InOrder.Heard β) α} {action : Emit σ α}
    {expected : InOrder.Heard β} (inner : Hears steady (depth + 1) listener action expected) :
    Hears steady depth (Emit.nested listener) (Emit.nested action) expected := by
  intro emission before
  rcases inner { emission with scope := emission.scope.derive } before with
    ⟨heard, same, order, level⟩
  refine ⟨heard, ?_, order, fun isSteady atDepth => ?_⟩
  · have entered : Emit.nested listener (emission.beside before) =
        (fun outcome => (outcome.1, { outcome.2 with scope := emission.scope }))
          (listener (Emission.beside before { emission with scope := emission.scope.derive })) :=
      rfl
    rw [entered, same]
    rfl
  · have derived : emission.scope.derive.depth = depth + 1 := by
      rw [Scope.depth_derive, atDepth]
    exact ⟨(level isSteady derived).1, atDepth, rfl⟩

theorem request {action : Emit σ α} (request : Request β) (keeps : steady → action.KeepsLevel) :
    Hears steady depth (do InOrder.hear request; Emit.beside action) action [(request, depth)] := by
  intro emission before
  refine ⟨[(request, emission.scope.depth)], rfl, rfl, fun isSteady atDepth => ?_⟩
  rcases keeps isSteady emission with ⟨sameDepth, sameNames⟩
  exact ⟨by rw [atDepth], sameDepth.trans atDepth, sameNames⟩

end Hears

/-! ## Blocks and kinds -/

namespace Hears

variable {β σ : Type} {depth : Nat} (generator : InOrder β σ)

theorem compileConditions (lists : List InstructionList) :
    Hears generator.KeepsLevels depth
      (GuardedBlock.compileConditions generator.listening.toEmitter lists)
      (GuardedBlock.compileConditions generator.toEmitter lists)
      (lists.map fun list => (.conditions list, depth)) := by
  induction lists with
  | nil => exact pure []
  | cons head tail induction =>
      have first : Hears generator.KeepsLevels depth (generator.listening.conditions head)
          (generator.conditions head) [(.conditions head, depth)] :=
        request _ fun keeps => keeps.conditions head
      exact first.bind fun compiled => induction.map (compiled :: ·)

theorem compileActions (lists : List InstructionList) :
    Hears generator.KeepsLevels depth
      (GuardedBlock.compileActions generator.listening.toEmitter lists)
      (GuardedBlock.compileActions generator.toEmitter lists)
      (lists.map fun list => (.actions list, depth)) := by
  induction lists with
  | nil => exact pure ""
  | cons head tail induction =>
      have first : Hears generator.KeepsLevels depth (generator.listening.actions head)
          (generator.actions head) [(.actions head, depth)] :=
        request _ fun keeps => keeps.actions head
      exact first.bind fun text => induction.map (text ++ ·)

/-- What compiles the sub-events of a node, if it has any. -/
def OfSubEvents (depth : Nat) (listener : Option (Emit (σ × InOrder.Heard β) String))
    (action : Option (Emit σ String)) (expected : InOrder.Heard β) : Prop :=
  Hears generator.KeepsLevels depth
    (GuardedBlock.compileSubEvents generator.listening.toEmitter listener)
    (GuardedBlock.compileSubEvents generator.toEmitter action) expected

variable {generator}

theorem OfSubEvents.none : OfSubEvents generator depth none none [] := pure ""

theorem OfSubEvents.some {listener : Emit (σ × InOrder.Heard β) String}
    {action : Emit σ String} {expected : InOrder.Heard β}
    (inner : Hears generator.KeepsLevels (depth + 1) listener action expected) :
    OfSubEvents generator depth (some listener) (some action) expected :=
  inner.nested.map fun code => if code.isEmpty then "" else block "" code generator.indentUnit

variable {listener : Option (Emit (σ × InOrder.Heard β) String)}
  {action : Option (Emit σ String)} {below : InOrder.Heard β}

theorem OfSubEvents.generateBody (inner : OfSubEvents generator depth listener action below)
    (actions : List InstructionList) :
    Hears generator.KeepsLevels depth
      (GuardedBlock.generateBody { actions, subEvents := listener } generator.listening.toEmitter)
      (GuardedBlock.generateBody { actions, subEvents := action } generator.toEmitter)
      (actions.map (fun list => (.actions list, depth)) ++ below) :=
  (compileActions generator actions).bind fun text => map inner (text ++ ·)

theorem OfSubEvents.generate (inner : OfSubEvents generator depth listener action below)
    (conditions actions : List InstructionList) :
    Hears generator.KeepsLevels depth
      (GuardedBlock.generate { conditions, actions, subEvents := listener }
        generator.listening.toEmitter)
      (GuardedBlock.generate { conditions, actions, subEvents := action } generator.toEmitter)
      (conditions.map (fun list => (.conditions list, depth)) ++
        (actions.map (fun list => (.actions list, depth)) ++ below)) :=
  (compileConditions generator conditions).bind fun compiled =>
    (inner.generateBody actions).map fun body =>
      String.join (compiled.map CompiledConditions.code) ++
        block (GuardedBlock.guardHeader .all (compiled.map CompiledConditions.flag)) body
          generator.indentUnit

theorem OfSubEvents.generateRepetition
    (inner : OfSubEvents generator (depth + 1) listener action below)
    (repetition : Kind.Repetition) (counted : repetition.count.isEmpty = false) :
    Hears generator.KeepsLevels depth
      (repetition.generate generator.listening.toEmitter listener)
      (repetition.generate generator.toEmitter action)
      ((.conditions repetition.conditions, depth + 1) ::
        (.actions repetition.actions, depth + 1) :: below) := by
  simp only [Kind.Repetition.generate, counted, Bool.false_eq_true, ↓reduceIte]
  apply (uniqueName "repeat").following
  intro counter
  apply (declare counter).following
  intro _
  exact (inner.generate [repetition.conditions] [repetition.actions]).nested.map fun body =>
    Kind.Repetition.bindCounter counter repetition.count.trimmed ++
      block (Kind.Repetition.loopHeader counter) body generator.indentUnit

theorem generateUncounted (repetition : Kind.Repetition)
    (uncounted : repetition.count.isEmpty = true) :
    Hears generator.KeepsLevels depth
      (repetition.generate generator.listening.toEmitter listener)
      (repetition.generate generator.toEmitter action)
      [(.report Kind.Repetition.withoutCount, depth)] := by
  simp only [Kind.Repetition.generate, uncounted, ↓reduceIte]
  have reported : Hears generator.KeepsLevels depth
      (generator.listening.report Kind.Repetition.withoutCount)
      (generator.report Kind.Repetition.withoutCount)
      [(.report Kind.Repetition.withoutCount, depth)] :=
    request _ fun keeps => keeps.report _
  exact reported.map fun _ => ""

theorem generateArms (isFirst : Bool) (arms : List (Kind.BranchArm × CompiledConditions)) :
    Hears generator.KeepsLevels depth
      (Kind.Branch.generateArms generator.listening.toEmitter isFirst arms)
      (Kind.Branch.generateArms generator.toEmitter isFirst arms)
      ((arms.map Prod.fst).map fun arm => (.actions arm.actions, depth)) := by
  induction arms generalizing isFirst with
  | nil => exact pure ""
  | cons head tail induction =>
      rcases head with ⟨arm, compiled⟩
      exact (OfSubEvents.none.generateBody [arm.actions]).bind fun body =>
        (induction false).map fun rest =>
          Kind.Branch.armHeader isFirst compiled.flag ++
            Text.indent body generator.indentUnit ++ rest

theorem generateOtherwise (otherwise : InstructionList) :
    Hears generator.KeepsLevels depth
      (Kind.Branch.generateOtherwise generator.listening.toEmitter otherwise)
      (Kind.Branch.generateOtherwise generator.toEmitter otherwise)
      (if otherwise.isEmpty then [] else [(.actions otherwise, depth)]) := by
  by_cases nothing : otherwise.isEmpty
  · simp only [Kind.Branch.generateOtherwise, nothing, ↓reduceIte]
    exact pure ""
  · simp only [Kind.Branch.generateOtherwise, nothing, Bool.false_eq_true, ↓reduceIte]
    exact (OfSubEvents.none.generateBody [otherwise]).map fun body =>
      "\x7d else \x7b\n" ++ Text.indent body generator.indentUnit

theorem generateBranch (branch : Kind.Branch) :
    Hears generator.KeepsLevels depth (branch.generate generator.listening.toEmitter)
      (branch.generate generator.toEmitter) (Request.ofBranch depth branch) := by
  rcases branch with ⟨arms, otherwise⟩
  cases arms with
  | nil =>
      cases otherwise with
      | nil => exact pure ""
      | cons head tail => exact OfSubEvents.none.generate [] [head :: tail]
  | cons head tail =>
      have conditions : Hears generator.KeepsLevels depth _ _ _ :=
        compileConditions generator ((head :: tail).map Kind.BranchArm.conditions)
      rw [List.map_map] at conditions
      rw [Request.ofBranch, List.append_assoc]
      apply conditions.bind_answer
      intro emission
      have paired := GuardedBlock.length_compileConditions generator.toEmitter
        ((head :: tail).map Kind.BranchArm.conditions) emission
      generalize (GuardedBlock.compileConditions generator.toEmitter
        ((head :: tail).map Kind.BranchArm.conditions) emission).1 = compiled at paired ⊢
      rw [List.length_map] at paired
      have generated : Hears generator.KeepsLevels depth _ _ _ :=
        generateArms true ((head :: tail).zip compiled)
      rw [List.map_fst_zip (Nat.le_of_eq paired.symm)] at generated
      exact generated.bind fun arms => (generateOtherwise otherwise).map fun otherwise =>
        String.join (compiled.map CompiledConditions.code) ++ arms ++ otherwise ++ "\x7d\n"

end Hears

/-! ## Trees -/

section Trees

variable {σ : Type} {generator : InOrder Kind.Builtin σ}

/-- The nodes of a forest are generated while the forest is gone through. -/
def HearsNodes (generator : InOrder Kind.Builtin σ) (forest : List (Node Kind.Builtin)) : Prop :=
  ∀ (depth : Nat) (working : generator.Working),
    Hears generator.KeepsLevels depth
      (generator.listening.walk working
        (Forest.generators generator.listening.toGenerator forest))
      (generator.walk working (Forest.generators generator.toGenerator forest))
      (Forest.requests depth forest)

namespace HearsNodes

variable {subEvents : List (Node Kind.Builtin)}

/-- A forest is asked for before its nodes are. -/
theorem generateForest (nodes : HearsNodes generator subEvents) (depth : Nat) :
    Hears generator.KeepsLevels depth
      (generator.listening.toGenerator.forest
        (Forest.generators generator.listening.toGenerator subEvents))
      (generator.toGenerator.forest (Forest.generators generator.toGenerator subEvents))
      ((.forest subEvents, depth) :: Forest.requests depth subEvents) := by
  have started : Hears generator.KeepsLevels depth (generator.listening.start subEvents)
      (generator.start subEvents) [(.forest subEvents, depth)] :=
    Hears.request _ fun keeps => keeps.start subEvents
  simp only [InOrder.toGenerator, Forest.map_fst_generators]
  exact started.bind fun working => nodes depth working

theorem ofSubEvents (nodes : HearsNodes generator subEvents) (depth : Nat) :
    Hears.OfSubEvents generator depth
      (let nested := Forest.generators generator.listening.toGenerator subEvents
       if nested.isEmpty then none else some (generator.listening.toGenerator.forest nested))
      (let nested := Forest.generators generator.toGenerator subEvents
       if nested.isEmpty then none else some (generator.toGenerator.forest nested))
      (if subEvents.isEmpty then []
        else (.forest subEvents, depth + 1) :: Forest.requests (depth + 1) subEvents) := by
  cases subEvents with
  | nil => exact Hears.OfSubEvents.none
  | cons head tail => exact Hears.OfSubEvents.some (nodes.generateForest (depth + 1))

theorem generateNode (nodes : HearsNodes generator subEvents) (event : Event Kind.Builtin)
    (depth : Nat) :
    Hears generator.KeepsLevels depth
      (Node.generate generator.listening.toGenerator ⟨event, subEvents⟩)
      (Node.generate generator.toGenerator ⟨event, subEvents⟩)
      (Node.requests depth ⟨event, subEvents⟩) := by
  rcases event with ⟨id, behavior, disabled, folded, remembered⟩
  rw [Node.generate, Node.generate, Node.requests]
  cases disabled with
  | true => exact Hears.pure ""
  | false =>
      cases behavior with
      | standard standard =>
          exact (nodes.ofSubEvents depth).generate [standard.conditions] [standard.actions]
      | branch branch => exact Hears.generateBranch branch
      | repetition repetition =>
          cases uncounted : repetition.count.isEmpty with
          | true =>
              show Hears _ depth _ _ (if repetition.count.isEmpty then _ else _)
              rw [if_pos uncounted]
              exact Hears.generateUncounted repetition uncounted
          | false =>
              have counted : ¬ repetition.count.isEmpty = true := Bool.not_eq_true _ ▸ uncounted
              show Hears _ depth _ _ (if repetition.count.isEmpty then _ else _)
              rw [if_neg counted]
              exact (nodes.ofSubEvents (depth + 1)).generateRepetition repetition uncounted
      | comment comment => exact Hears.pure ""
      | link link => exact Hears.pure ""

end HearsNodes

mutual
theorem Hears.generateNode : ∀ (node : Node Kind.Builtin) (depth : Nat),
    Hears generator.KeepsLevels depth (node.generate generator.listening.toGenerator)
      (node.generate generator.toGenerator) (node.requests depth)
  | ⟨event, subEvents⟩, depth => (Hears.generateNodes subEvents).generateNode event depth

theorem Hears.generateNodes : ∀ forest : List (Node Kind.Builtin), HearsNodes generator forest
  | [] => fun depth working => Hears.beside fun keeps => keeps.finish working
  | head :: tail => by
      intro depth working
      apply (Hears.generateNode head depth).bind
      intro code
      have resumed : Hears generator.KeepsLevels depth
          (generator.listening.resume working head code) (generator.resume working head code) [] :=
        Hears.beside fun keeps => keeps.resume working head code
      exact resumed.following fun working => Hears.generateNodes tail depth working
end

end Trees

end EventSheet
