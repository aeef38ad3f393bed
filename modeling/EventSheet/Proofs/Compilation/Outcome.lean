import EventSheet.Compile
import EventSheet.Proofs.Lineage.Origins
import EventSheet.Proofs.Traversal.Refinement
namespace EventSheet

/-! # What compiling comes to

The parts of a compilation, in the order they happen: the events are copied, the pass over the
copies ends in a forest and a state, and from these the code is generated. -/

section

variable {β : Type} [Behavior β]

/-- The code generated from the forest and the state a pass ends with, problems of the pass
first. -/
def codeOf (settings : Settings) (working : Forest β) (state : PassState β) : GeneratedCode where
  source := (Codegen.Program.generate settings state.population working {}).1
  diagnostics := state.context.diagnostics ++
    (Codegen.Program.generate settings state.population working {}).2.diagnostics

/-- Who is left once the working copy and the sheets of the context were destroyed. -/
def populationBehind (working : Forest β) (state : PassState β) : Population :=
  (state.context.destroyExternals (Forest.destroy working state.population).2).2

variable {fuel : Nat} {context : PreprocessContext β} {forest : Forest β} {population : Population}

theorem compileEvents_eq (settings : Settings) :
    compileEvents fuel settings context forest population =
      ((Forest.cloneRemembering forest population).1.preprocess fuel
        ⟨context, (Forest.cloneRemembering forest population).2⟩).map fun outcome =>
          (codeOf settings outcome.1.1 outcome.2, populationBehind outcome.1.1 outcome.2) := by
  rcases copied : Forest.cloneRemembering forest population with ⟨working, copies⟩
  simp only [compileEvents, copied]
  cases working.preprocess fuel ⟨context, copies⟩ <;> rfl

end

/-! ## The pass over the working copy -/

open Kind (Builtin)
open Preprocess

variable {context : PreprocessContext Builtin} {forest : Forest Builtin} {population : Population}

/-- The events that are compiled: those of the forest and of the sheets it can include. -/
def compiledEvents (context : PreprocessContext Builtin) (forest : Forest Builtin) :
    List (Event Builtin) :=
  Forest.members (forest ++ context.sheets)

/-- The pass of a compilation: it begins with copies of the events and makes these calls. -/
def CompilingPass (context : PreprocessContext Builtin) (forest : Forest Builtin)
    (population : Population) (calls : List (Preprocess.Call Builtin (PassState Builtin)))
    (working : Forest Builtin) (state : PassState Builtin) : Prop :=
  Traverses Pass.visitor (Forest.cloneRemembering forest population).1 0
    ⟨context, (Forest.cloneRemembering forest population).2⟩ calls working state

/-- There is enough fuel for every compilation, and the settings do not matter. -/
theorem exists_compilingPass (context : PreprocessContext Builtin) (forest : Forest Builtin)
    (population : Population) :
    ∃ calls working state, CompilingPass context forest population calls working state ∧
      ∃ fuel, ∀ settings, compileEvents fuel settings context forest population =
        some (codeOf settings working state, populationBehind working state) := by
  rcases exists_traverses _ _ (Forest.cloneRemembering forest population).1 0
      ⟨context, (Forest.cloneRemembering forest population).2⟩ rfl rfl with
    ⟨calls, working, state, traverses⟩
  refine ⟨calls, working, state, traverses, ?_⟩
  rcases run_recording_iff.mpr ⟨traverses, rfl⟩ with ⟨fuel, ends⟩
  refine ⟨fuel, fun settings => ?_⟩
  rw [compileEvents_eq, Forest.preprocess_eq_recorded, Forest.preprocessRecorded, ends]
  rfl

/-- Compiling the forest ends, and with this code whenever it ends. -/
structure Compiles (settings : Settings) (context : PreprocessContext Builtin)
    (forest : Forest Builtin) (population : Population) (code : GeneratedCode) : Prop where
  ends : ∃ fuel behind, compileEvents fuel settings context forest population = some (code, behind)
  only : ∀ fuel outcome, compileEvents fuel settings context forest population = some outcome →
    outcome.1 = code

namespace CompilingPass

variable {calls : List (Preprocess.Call Builtin (PassState Builtin))} {working : Forest Builtin}
  {state : PassState Builtin}

/-- A compilation that ends is the one of the pass. -/
theorem outcome_eq (pass : CompilingPass context forest population calls working state)
    {fuel : Nat} {settings : Settings} {outcome : GeneratedCode × Population}
    (compiles : compileEvents fuel settings context forest population = some outcome) :
    outcome = (codeOf settings working state, populationBehind working state) := by
  rw [compileEvents_eq, Forest.preprocess_eq_recorded, Option.map_map,
    Option.map_eq_some_iff] at compiles
  rcases compiles with ⟨⟨⟨final, visits⟩, last, others⟩, recorded, rfl⟩
  have traverses := Forest.traverses_of_recorded recorded
  rcases Traverses.unique pass traverses with ⟨-, rfl, rfl⟩
  rfl

/-- Compilations with any settings make the same pass. -/
theorem compiles (pass : CompilingPass context forest population calls working state)
    (settings : Settings) :
    Compiles settings context forest population (codeOf settings working state) := by
  rcases exists_compilingPass context forest population with
    ⟨others, final, last, other, fuel, enough⟩
  have ends := enough settings
  have same := Traverses.unique pass other
  rw [← same.2.1, ← same.2.2] at ends
  refine ⟨⟨fuel, _, ends⟩, fun other outcome compiled => ?_⟩
  rw [pass.outcome_eq compiled]

/-- The pass works on copies of the events compiled, and these exist while it does. -/
theorem copies (pass : CompilingPass context forest population calls working state) :
    (∀ event ∈ Forest.members working,
        event.CopiesOneOf (compiledEvents context forest) population.nextId) ∧
      Population.Spares population.nextId population state.population ∧
      ∀ call ∈ calls,
        call.event.CopiesOneOf (compiledEvents context forest) population.nextId ∧
        Population.Spares population.nextId population call.state.population := by
  have copied : Population.Spares population.nextId population
      (Forest.cloneRemembering forest population).2 := by
    rw [Forest.cloneRemembering_eq_copy]
    exact Forest.spares_copy Event.itself _ _ _
  have works : WorksOn (compiledEvents context forest) population.nextId
      ⟨context, (Forest.cloneRemembering forest population).2⟩ := by
    refine ⟨copied.grows (Nat.le_refl _), fun event isMember => ?_⟩
    rw [compiledEvents, Forest.members_append]
    exact List.mem_append_right _ isMember
  have begins : ∀ event ∈ Forest.members (Forest.cloneRemembering forest population).1,
      event.CopiesOneOf (compiledEvents context forest) population.nextId := by
    intro event isMember
    rw [Forest.cloneRemembering_eq_copy] at isMember
    apply (Forest.copiesOneOf_copy forest population event isMember).mono _ (Nat.le_refl _)
    intro source isSource
    rw [compiledEvents, Forest.members_append]
    exact List.mem_append_left _ isSource
  rcases Traverses.copies pass works begins with ⟨ends, advances, asked⟩
  exact ⟨ends, copied.trans advances.spares, fun call isCall =>
    ⟨(asked call isCall).1, copied.trans (asked call isCall).2.spares⟩⟩

end CompilingPass

/-- The code of one compilation that ends is that of all. -/
theorem Compiles.of_eq {fuel : Nat} {settings : Settings} {code : GeneratedCode}
    {behind : Population}
    (ends : compileEvents fuel settings context forest population = some (code, behind)) :
    Compiles settings context forest population code := by
  rcases exists_compilingPass context forest population with ⟨calls, working, state, pass, -⟩
  have compiles := pass.compiles settings
  rwa [← compiles.only fuel _ ends] at compiles

/-- A copy stands for the event it was made from when that existed before and was spared. -/
theorem Event.CopiesOneOf.standsFor {sources : List (Event Builtin)} {event : Event Builtin}
    (copies : event.CopiesOneOf sources population.nextId) {later : Population}
    (spares : Population.Spares population.nextId population later)
    (alive : ∀ source ∈ sources, population.isAlive source.id = true) :
    ∃ source ∈ sources, event.IsCopyOf source ∧ event.sourceId later = source.id := by
  rcases copies with ⟨-, source, isSource, isCopy⟩
  have existed := alive source isSource
  have stillExists :=
    spares.spared source.id (Population.lt_nextId_of_isAlive existed) (Nat.le_refl _)
  exact ⟨source, isSource, isCopy, isCopy.sourceId_eq (stillExists.trans existed)⟩

end EventSheet
