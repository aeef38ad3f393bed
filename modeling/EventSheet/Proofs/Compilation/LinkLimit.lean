import EventSheet.Compile
import EventSheet.Proofs.Traversal.LinkBudget
namespace EventSheet

/-! # Links expanded while compiling

Compiling expands as many links as the context it is given allows. The limit of the settings
counts when the context was told about it. -/

open Kind Preprocess

/-- Compiling a forest ends, and its pass over the copies of the events makes the calls. -/
def CompilesWith (fuel : Nat) (settings : Settings) (context : PreprocessContext Builtin)
    (forest : Forest Builtin) (population : Population)
    (calls : List (Preprocess.Call Builtin (PassState Builtin)))
    (outcome : GeneratedCode × Population) : Prop :=
  compileEvents fuel settings context forest population = some outcome ∧
    ∃ answer after,
      (Forest.cloneRemembering forest population).1.preprocessRecorded fuel
        ⟨context, (Forest.cloneRemembering forest population).2⟩ = some (answer, (after, calls))

/-- The pass ends whatever the settings are. -/
theorem compilesWith_of_traverses {context : PreprocessContext Builtin} {forest : Forest Builtin}
    {population : Population} {calls : List (Preprocess.Call Builtin (PassState Builtin))}
    {result : Forest Builtin} {after : PassState Builtin}
    (traverses : Traverses Pass.visitor (Forest.cloneRemembering forest population).1 0
      ⟨context, (Forest.cloneRemembering forest population).2⟩ calls result after) :
    ∃ fuel, ∀ settings, ∃ outcome,
      CompilesWith fuel settings context forest population calls outcome := by
  rcases run_recording_iff.mpr ⟨traverses, rfl⟩ with ⟨fuel, ends⟩
  have plain := run_recording Pass.visitor fuel
    { ahead := (Forest.cloneRemembering forest population).1 } [] 0
    ⟨context, (Forest.cloneRemembering forest population).2⟩ []
  rw [ends, Option.map_some] at plain
  refine ⟨fuel, fun settings => ?_⟩
  have compiles : ∃ outcome,
      compileEvents fuel settings context forest population = some outcome := by
    rcases copied : Forest.cloneRemembering forest population with ⟨working, copies⟩
    rw [copied] at plain
    simp only [compileEvents, Forest.preprocess, copied, ← plain]
    exact ⟨_, rfl⟩
  rcases compiles with ⟨outcome, isOutcome⟩
  exact ⟨outcome, isOutcome, _, after, ends⟩

/-- The pass does not depend on the settings: it expands links to known sheets as long as the
budget of the context lasts. -/
theorem exists_compilesWith (forest : Forest Builtin) (scope : String)
    (externals : Named (Forest Builtin)) (budget : Nat) (population : Population) :
    ∃ fuel calls, calls.countP (·.expands) = min budget (calls.countP (·.isKnownLink)) ∧
      ∀ settings, ∃ outcome,
        CompilesWith fuel settings { scope, externals, maxLinkExpansions := budget } forest
          population calls outcome := by
  rcases exists_traverses _ _ (Forest.cloneRemembering forest population).1 0
      ⟨{ scope, externals, maxLinkExpansions := budget },
        (Forest.cloneRemembering forest population).2⟩ rfl rfl with
    ⟨calls, result, after, traverses⟩
  rcases compilesWith_of_traverses traverses with ⟨fuel, compiles⟩
  have counts := LinkCounts.of_traverses traverses
  have expansions : after.context.linkExpansions = 0 + calls.countP (·.expands) :=
    counts.expansions
  have spent : after.context.linkExpansions = min budget (0 + calls.countP (·.isKnownLink)) :=
    counts.spent (Nat.zero_le _)
  rw [Nat.zero_add] at expansions spent
  exact ⟨fuel, calls, expansions.symm.trans spent, compiles⟩

/-- With a fresh context, whatever the settings say, compiling expands links to known sheets up to
the budget a context starts with. It keeps to the limit of the settings when the context was given
that limit. -/
theorem compileEvents_expansions (forest : Forest Builtin) (scope : String)
    (externals : Named (Forest Builtin)) (population : Population) :
    (∃ fuel calls,
      calls.countP (·.expands) = min defaultMaxLinkExpansions (calls.countP (·.isKnownLink)) ∧
      ∀ settings, ∃ outcome,
        CompilesWith fuel settings { scope, externals } forest population calls outcome) ∧
    ∀ settings : Settings, ∃ fuel calls outcome,
      calls.countP (·.expands) ≤ settings.limits.maxLinkExpansions.toNat ∧
      CompilesWith fuel settings
        (PreprocessContext.withLimits { scope, externals } settings.limits) forest population calls
        outcome := by
  constructor
  · exact exists_compilesWith forest scope externals defaultMaxLinkExpansions population
  · intro settings
    rcases exists_compilesWith forest scope externals settings.limits.maxLinkExpansions.toNat
      population with ⟨fuel, calls, expansions, compiles⟩
    rcases compiles settings with ⟨outcome, compilesWith⟩
    refine ⟨fuel, calls, outcome, ?_, compilesWith⟩
    rw [expansions]
    exact Nat.min_le_left _ _

/-- A sheet that includes another. -/
def patrolScene : Forest Builtin :=
  [{ event := { id := 1, behavior := .link { target := "patrol" } } }]

def patrol : Forest Builtin :=
  [{ event := { id := 2, behavior := .standard { actions := [{ name := "walk" }] } } }]

def withoutLinks : Settings := { limits := { maxLinkExpansions := 0 } }

/-- The settings allow no link to be expanded, and one is. -/
theorem patrolScene_expanded : ∃ fuel calls outcome,
    CompilesWith fuel withoutLinks { scope := "scene", externals := [("patrol", patrol)] }
      patrolScene {} calls outcome ∧
    ¬ calls.countP (·.expands) ≤ withoutLinks.limits.maxLinkExpansions.toNat := by
  let context : PreprocessContext Builtin :=
    { scope := "scene", externals := [("patrol", patrol)] }
  let copied := Forest.cloneRemembering patrolScene {}
  have expansions : (copied.1.preprocessRecorded 10 ⟨context, copied.2⟩).map
      (fun outcome => outcome.2.2.countP (·.expands)) = some 1 := by
    decide +kernel
  rcases ends : copied.1.preprocessRecorded 10 ⟨context, copied.2⟩ with
    _ | ⟨⟨result, count⟩, after, calls⟩
  · rw [ends] at expansions
    cases expansions
  · rw [ends] at expansions
    rcases compilesWith_of_traverses (run_recording_iff.mp ⟨10, ends⟩).1 with
      ⟨fuel, compiles⟩
    rcases compiles withoutLinks with ⟨outcome, compilesWith⟩
    have once : calls.countP (·.expands) = 1 := Option.some.inj expansions
    refine ⟨fuel, calls, outcome, compilesWith, ?_⟩
    rw [once]
    decide

end EventSheet
