import EventSheet.Proofs.Compilation.Text
namespace EventSheet

/-! # Recording what is generated

Generators that do what the program generator does, and besides keep a record: of the nodes they
ask to generate their code, or of whatever a watch makes of these and of the forests left out. -/

open Codegen

/-! ## The recorder -/

namespace Codegen

/-- Put something beside the state of the generator. -/
def Emission.beside {σ ρ : Type} (other : ρ) (emission : Emission σ) : Emission (σ × ρ) :=
  { emission with generator := (emission.generator, other) }

/-- Act on a state that has something beside it, which stays as it is. -/
def Emit.beside {σ ρ α : Type} (action : Emit σ α) : Emit (σ × ρ) α := fun emission =>
  let (answer, after) := action { emission with generator := emission.generator.1 }
  (answer, after.beside emission.generator.2)

namespace Program

variable {β : Type}

/-- The state of the program generator, and the nodes it asked for their code so far. -/
abbrev Record (β : Type) := ProgramState × List (Node β)

def note (node : Node β) : Emit (Record β) Unit :=
  Emit.onGenerator fun (state, nodes) => (state, nodes ++ [node])

def recordWhile (node : Node β) (id : NodeId) (action : Emit (Record β) String) :
    Emit (Record β) String := do
  let parent := (← get).generator.1.current
  Emit.beside (Emit.onGenerator fun state => { state with current := some id })
  note node
  let code ← action
  Emit.beside (Emit.onGenerator fun state => { state with current := parent })
  return code

def recordNodes (emitHooks : Bool) (population : Population) :
    List (Node β × Emit (Record β) String) → Emit (Record β) String
  | [] => return ""
  | (node, generate) :: rest => do
      let id := node.event.sourceId population
      let code ← recordWhile node id generate
      let tail ← recordNodes emitHooks population rest
      return (if code.isEmpty then "" else withHooks emitHooks id code) ++ tail

def recordForest (settings : Settings) (population : Population)
    (nodes : List (Node β × Emit (Record β) String)) : Emit (Record β) String := do
  let limit := settings.limits.maxNestingDepth.toNat
  if limit < (← get).scope.depth then
    Emit.beside (reportAll [nestedTooDeeply (Forest.count (nodes.map Prod.fst)) limit])
    return ""
  else recordNodes settings.profiling.emitHooks population nodes

def recorder (settings : Settings) (population : Population) : Generator β (Record β) where
  conditions := fun conditions => Emit.beside (compileConditions conditions)
  actions := fun actions => Emit.beside (compileActions actions)
  report := fun diagnostic => Emit.beside (Emit.onGenerator (ProgramState.report diagnostic))
  indentUnit := ""
  forest := recordForest settings population

/-! ### Any record -/

/-- What the record gets when a node is asked for its code, and when a forest is left out. -/
structure Watch (β ρ : Type) where
  asked : Node β → List ρ := fun _ => []
  leftOut : Forest β → List ρ := fun _ => []

variable {ρ : Type}

def keep (entries : List ρ) : Emit (ProgramState × List ρ) Unit :=
  Emit.onGenerator fun (state, before) => (state, before ++ entries)

/-- What events call, with a record beside it that stays as it is. -/
def besideEmitter (ρ : Type) : Emitter (ProgramState × List ρ) where
  conditions := fun conditions => Emit.beside (compileConditions conditions)
  actions := fun actions => Emit.beside (compileActions actions)
  report := fun diagnostic => Emit.beside (Emit.onGenerator (ProgramState.report diagnostic))
  indentUnit := ""

def watchWhile (entries : List ρ) (id : NodeId) (action : Emit (ProgramState × List ρ) String) :
    Emit (ProgramState × List ρ) String := do
  let parent := (← get).generator.1.current
  Emit.beside (Emit.onGenerator fun state => { state with current := some id })
  keep entries
  let code ← action
  Emit.beside (Emit.onGenerator fun state => { state with current := parent })
  return code

def watchNodes (watch : Watch β ρ) (emitHooks : Bool) (population : Population) :
    List (Node β × Emit (ProgramState × List ρ) String) → Emit (ProgramState × List ρ) String
  | [] => return ""
  | (node, generate) :: rest => do
      let id := node.event.sourceId population
      let code ← watchWhile (watch.asked node) id generate
      let tail ← watchNodes watch emitHooks population rest
      return (if code.isEmpty then "" else withHooks emitHooks id code) ++ tail

def watchForest (watch : Watch β ρ) (settings : Settings) (population : Population)
    (nodes : List (Node β × Emit (ProgramState × List ρ) String)) :
    Emit (ProgramState × List ρ) String := do
  let limit := settings.limits.maxNestingDepth.toNat
  if limit < (← get).scope.depth then
    Emit.beside (reportAll [nestedTooDeeply (Forest.count (nodes.map Prod.fst)) limit])
    keep (watch.leftOut (nodes.map Prod.fst))
    return ""
  else watchNodes watch settings.profiling.emitHooks population nodes

def watcher (watch : Watch β ρ) (settings : Settings) (population : Population) :
    Generator β (ProgramState × List ρ) where
  toEmitter := besideEmitter ρ
  forest := watchForest watch settings population

/-- The watch of the recorder. -/
def askedNodes : Watch β (Node β) where
  asked := fun node => [node]

theorem recordNodes_eq (emitHooks : Bool) (population : Population)
    (nodes : List (Node β × Emit (Record β) String)) :
    recordNodes emitHooks population nodes = watchNodes askedNodes emitHooks population nodes := by
  induction nodes with
  | nil => rfl
  | cons head tail induction =>
      rw [recordNodes, watchNodes, induction]
      rfl

theorem recorder_eq (settings : Settings) (population : Population) :
    recorder (β := β) settings population = watcher askedNodes settings population := by
  have forests (nodes : List (Node β × Emit (Record β) String)) :
      recordForest settings population nodes = watchForest askedNodes settings population nodes := by
    funext emission
    simp only [recordForest, watchForest, recordNodes_eq, askedNodes, keep, List.append_nil]
    rfl
  rw [recorder, watcher, funext forests]
  rfl

end Program

end Codegen

/-! ## Recording beside emitting -/

/-- In a block at a depth, `recorded` does what `action` does, and adds the entries to the
record. -/
def Records {ρ α : Type} (depth : Nat) (recorded : Emit (ProgramState × List ρ) α)
    (action : Emit ProgramState α) (entries : List ρ) : Prop :=
  ∀ (emission : Emission ProgramState) (before : List ρ), emission.scope.depth = depth →
    recorded (emission.beside before) =
      ((action emission).1, (action emission).2.beside (before ++ entries)) ∧
    (action emission).2.scope.depth = depth

namespace Records

variable {ρ α γ : Type} {depth : Nat}

/-- What leaves the record alone and ends at the depth it starts at. -/
theorem of_alone {recorded : Emit (ProgramState × List ρ) α} {action : Emit ProgramState α}
    (alone : ∀ emission before, recorded (emission.beside before) =
      ((action emission).1, (action emission).2.beside before))
    (level : ∀ emission, (action emission).2.scope.depth = emission.scope.depth) :
    Records depth recorded action [] := by
  intro emission before atDepth
  rw [List.append_nil]
  exact ⟨alone emission before, (level emission).trans atDepth⟩

theorem pure (answer : α) :
    Records (ρ := ρ) depth (Pure.pure answer) (Pure.pure answer) [] :=
  of_alone (fun _ _ => rfl) fun _ => rfl

theorem bind {recorded : Emit (ProgramState × List ρ) α} {action : Emit ProgramState α}
    {next : α → Emit (ProgramState × List ρ) γ} {nextAction : α → Emit ProgramState γ}
    {entries more : List ρ} (first : Records depth recorded action entries)
    (rest : ∀ answer, Records depth (next answer) (nextAction answer) more) :
    Records depth (recorded >>= next) (action >>= nextAction) (entries ++ more) := by
  intro emission before atDepth
  rcases first emission before atDepth with ⟨same, sameDepth⟩
  have after := rest (action emission).1 (action emission).2 (before ++ entries) sameDepth
  rw [List.append_assoc] at after
  simp only [Bind.bind, StateT.bind, same]
  exact after

/-- What leaves the record alone goes on with the record it found. -/
theorem following {recorded : Emit (ProgramState × List ρ) α} {action : Emit ProgramState α}
    {next : α → Emit (ProgramState × List ρ) γ} {nextAction : α → Emit ProgramState γ}
    {entries : List ρ} (first : Records depth recorded action [])
    (rest : ∀ answer, Records depth (next answer) (nextAction answer) entries) :
    Records depth (recorded >>= next) (action >>= nextAction) entries :=
  first.bind rest

theorem map {recorded : Emit (ProgramState × List ρ) α} {action : Emit ProgramState α}
    {entries : List ρ} (first : Records depth recorded action entries) (change : α → γ) :
    Records depth (recorded >>= fun answer => Pure.pure (change answer))
      (action >>= fun answer => Pure.pure (change answer)) entries := by
  rw [← List.append_nil entries]
  exact first.bind fun answer => pure (change answer)

theorem beside {action : Emit ProgramState α}
    (level : ∀ emission, (action emission).2.scope.depth = emission.scope.depth) :
    Records (ρ := ρ) depth (Emit.beside action) action [] :=
  of_alone (fun _ _ => rfl) level

theorem uniqueName (stem : String) :
    Records (ρ := ρ) depth (Emit.uniqueName stem) (Emit.uniqueName stem) [] :=
  of_alone (fun _ _ => rfl) fun _ => rfl

theorem declare (name : String) :
    Records (ρ := ρ) depth (Emit.declare name) (Emit.declare name) [] := by
  apply of_alone fun _ _ => rfl
  intro emission
  have declared : Emits emission.scope.depth (Emit.declare (σ := ProgramState) name) _ _ :=
    Emits.declare name
  exact (declared emission rfl).2.2

theorem nested {recorded : Emit (ProgramState × List ρ) α} {action : Emit ProgramState α}
    {entries : List ρ} (inner : Records (depth + 1) recorded action entries) :
    Records depth (Emit.nested recorded) (Emit.nested action) entries := by
  intro emission before atDepth
  have derived : emission.scope.derive.depth = depth + 1 := by
    rw [Scope.depth_derive, atDepth]
  rcases inner { emission with scope := emission.scope.derive } before derived with ⟨same, _⟩
  have entered : Emit.nested recorded (emission.beside before) =
      (fun outcome => (outcome.1, { outcome.2 with scope := emission.scope }))
        (recorded (Emission.beside before { emission with scope := emission.scope.derive })) := rfl
  refine ⟨?_, atDepth⟩
  rw [entered, same]
  rfl

end Records

/-! ## Events -/

section

variable {ρ : Type} {depth : Nat} (settings : Settings) (population : Population)

namespace Records

theorem conditionList (conditions : InstructionList) :
    Records depth ((Program.besideEmitter ρ).conditions conditions)
      ((Program.emitter settings population).conditions conditions) [] :=
  beside fun emission => ((Emits.compileConditions conditions) emission rfl).2.2

theorem actionList (actions : InstructionList) :
    Records depth ((Program.besideEmitter ρ).actions actions)
      ((Program.emitter settings population).actions actions) [] :=
  beside fun emission => ((Emits.compileActions "" actions) emission rfl).2.2

theorem report (diagnostic : Diagnostic) :
    Records depth ((Program.besideEmitter ρ).report diagnostic)
      ((Program.emitter settings population).report diagnostic) [] := by
  change Records depth (Emit.beside (Emit.onGenerator _)) (Emit.onGenerator _) []
  exact beside fun _ => rfl

theorem compileConditions (lists : List InstructionList) :
    Records depth
      (GuardedBlock.compileConditions (Program.besideEmitter ρ) lists)
      (GuardedBlock.compileConditions (Program.emitter settings population) lists) [] := by
  induction lists with
  | nil => exact pure []
  | cons head tail induction =>
      apply (conditionList settings population head).following
      intro compiled
      exact induction.map (compiled :: ·)

theorem compileActions (lists : List InstructionList) :
    Records depth
      (GuardedBlock.compileActions (Program.besideEmitter ρ) lists)
      (GuardedBlock.compileActions (Program.emitter settings population) lists) [] := by
  induction lists with
  | nil => exact pure ""
  | cons head tail induction =>
      apply (actionList settings population head).following
      intro text
      exact induction.map (text ++ ·)

/-- What compiles the sub-events of a node, if it has any. -/
def OfSubEvents (depth : Nat) (recorded : Option (Emit (ProgramState × List ρ) String))
    (action : Option (Emit ProgramState String)) (entries : List ρ) : Prop :=
  Records depth
    (GuardedBlock.compileSubEvents (Program.besideEmitter ρ) recorded)
    (GuardedBlock.compileSubEvents (Program.emitter settings population) action) entries

variable {settings population}

theorem OfSubEvents.none : OfSubEvents (ρ := ρ) settings population depth none none [] := pure ""

theorem OfSubEvents.some {recorded : Emit (ProgramState × List ρ) String}
    {action : Emit ProgramState String} {entries : List ρ}
    (inner : Records (depth + 1) recorded action entries) :
    OfSubEvents settings population depth (some recorded) (some action) entries :=
  inner.nested.map fun code => if code.isEmpty then "" else block "" code ""

variable {recorded : Option (Emit (ProgramState × List ρ) String)}
  {action : Option (Emit ProgramState String)} {entries : List ρ}

theorem OfSubEvents.generateBody
    (inner : OfSubEvents settings population depth recorded action entries)
    (actions : List InstructionList) :
    Records depth
      (GuardedBlock.generateBody { actions, subEvents := recorded }
        (Program.besideEmitter ρ))
      (GuardedBlock.generateBody { actions, subEvents := action }
        (Program.emitter settings population)) entries := by
  apply (compileActions settings population actions).following
  intro text
  exact map inner (text ++ ·)

theorem OfSubEvents.generate
    (inner : OfSubEvents settings population depth recorded action entries)
    (conditions actions : List InstructionList) :
    Records depth
      (GuardedBlock.generate { conditions, actions, subEvents := recorded }
        (Program.besideEmitter ρ))
      (GuardedBlock.generate { conditions, actions, subEvents := action }
        (Program.emitter settings population)) entries := by
  apply (compileConditions settings population conditions).following
  intro compiled
  exact (inner.generateBody actions).map fun body =>
    String.join (compiled.map CompiledConditions.code) ++
      block (GuardedBlock.guardHeader .all (compiled.map CompiledConditions.flag)) body ""

theorem OfSubEvents.generateRepetition
    (inner : OfSubEvents settings population (depth + 1) recorded action entries)
    (repetition : Kind.Repetition) (counted : repetition.count.isEmpty = false) :
    Records depth
      (repetition.generate (Program.besideEmitter ρ) recorded)
      (repetition.generate (Program.emitter settings population) action) entries := by
  simp only [Kind.Repetition.generate, counted, Bool.false_eq_true, ↓reduceIte]
  apply (uniqueName "repeat").following
  intro counter
  apply (declare counter).following
  intro _
  exact ((inner.generate [repetition.conditions] [repetition.actions]).nested).map fun body =>
    Kind.Repetition.bindCounter counter repetition.count.trimmed ++
      block (Kind.Repetition.loopHeader counter) body ""

theorem generateUncounted (repetition : Kind.Repetition)
    (uncounted : repetition.count.isEmpty = true) :
    Records depth
      (repetition.generate (Program.besideEmitter ρ) recorded)
      (repetition.generate (Program.emitter settings population) action) [] := by
  simp only [Kind.Repetition.generate, uncounted, ↓reduceIte]
  apply (report settings population _).following
  intro _
  exact pure ""

theorem generateArms (isFirst : Bool) (arms : List (Kind.BranchArm × CompiledConditions)) :
    Records depth
      (Kind.Branch.generateArms (Program.besideEmitter ρ) isFirst arms)
      (Kind.Branch.generateArms (Program.emitter settings population) isFirst arms) [] := by
  induction arms generalizing isFirst with
  | nil => exact pure ""
  | cons head tail induction =>
      rcases head with ⟨arm, compiled⟩
      apply (OfSubEvents.none.generateBody [arm.actions]).following
      intro body
      exact (induction false).map fun rest =>
        Kind.Branch.armHeader isFirst compiled.flag ++ Text.indent body "" ++ rest

theorem generateOtherwise (otherwise : InstructionList) :
    Records depth
      (Kind.Branch.generateOtherwise (Program.besideEmitter ρ) otherwise)
      (Kind.Branch.generateOtherwise (Program.emitter settings population) otherwise) [] := by
  rw [Kind.Branch.generateOtherwise, Kind.Branch.generateOtherwise]
  cases otherwise.isEmpty with
  | true => exact pure ""
  | false => exact (OfSubEvents.none.generateBody [otherwise]).map fun body =>
      "\x7d else \x7b\n" ++ Text.indent body ""

/-- A branch generates nothing below itself. -/
theorem generateBranch (branch : Kind.Branch) :
    Records depth (branch.generate (Program.besideEmitter ρ))
      (branch.generate (Program.emitter settings population)) [] := by
  rw [Kind.Branch.generate, Kind.Branch.generate]
  cases branch.arms.isEmpty with
  | true =>
      cases branch.otherwise.isEmpty with
      | true => exact pure ""
      | false => exact OfSubEvents.none.generate [] [branch.otherwise]
  | false =>
      apply (compileConditions settings population branch.conditionLists).following
      intro compiled
      apply (generateArms true (branch.arms.zip compiled)).following
      intro arms
      exact (generateOtherwise branch.otherwise).map fun otherwise =>
        String.join (compiled.map CompiledConditions.code) ++ arms ++ otherwise ++ "\x7d\n"

end Records

end

end EventSheet
