import EventSheet.Proofs.Compilation.Translation
import EventSheet.Proofs.Scope.UniqueNames
namespace EventSheet

/-! # Emitting side by side with naming

Emitting hands out names through the counters all scopes share; naming only counts them.
Done side by side, both hand out the same names. -/

/-! ## Names -/

namespace SharedScope

/-- The names handed out so far. -/
def names (shared : SharedScope) : Names where
  flags := shared.count "condition"
  counters := shared.count "repeat"

end SharedScope

/-! ## Steps -/

open Codegen

/-- In a block at a depth, `action` answers with what `Shows` of the answer of `naming`,
hands out the same names, and ends at the same depth. -/
def Emits {σ α γ : Type} (depth : Nat) (action : Emit σ α) (naming : Naming γ)
    (Shows : γ → α → Prop) : Prop :=
  ∀ emission : Emission σ, emission.scope.depth = depth →
    Shows (naming emission.shared.names).1 (action emission).1 ∧
    (action emission).2.shared.names = (naming emission.shared.names).2 ∧
    (action emission).2.scope.depth = depth

namespace Emits

variable {σ α γ α' γ' : Type} {depth : Nat}

theorem pure {Shows : γ → α → Prop} {meaning : γ} {answer : α} (shows : Shows meaning answer) :
    Emits (σ := σ) depth (Pure.pure answer) (Pure.pure meaning) Shows := by
  intro emission atDepth
  exact ⟨shows, rfl, atDepth⟩

theorem bind {action : Emit σ α} {naming : Naming γ} {Shows : γ → α → Prop}
    {next : α → Emit σ α'} {nextNaming : γ → Naming γ'} {NextShows : γ' → α' → Prop}
    (first : Emits depth action naming Shows)
    (rest : ∀ meaning answer, Shows meaning answer →
      Emits depth (next answer) (nextNaming meaning) NextShows) :
    Emits depth (action >>= next) (naming >>= nextNaming) NextShows := by
  intro emission atDepth
  rcases first emission atDepth with ⟨shows, sameNames, sameDepth⟩
  have after := rest _ _ shows _ sameDepth
  rw [sameNames] at after
  exact after

/-- What names nothing has no part in the naming. -/
theorem following {action : Emit σ α} {meaning : γ} {naming : Naming γ'} {Shows : γ → α → Prop}
    {next : α → Emit σ α'} {NextShows : γ' → α' → Prop}
    (first : Emits depth action (Pure.pure meaning) Shows)
    (rest : ∀ answer, Shows meaning answer → Emits depth (next answer) naming NextShows) :
    Emits depth (action >>= next) naming NextShows := by
  intro emission atDepth
  rcases first emission atDepth with ⟨shows, sameNames, sameDepth⟩
  have after := rest _ shows _ sameDepth
  rw [sameNames] at after
  exact after

theorem flag : Emits (σ := σ) depth (Emit.uniqueName "condition") Naming.flag Eq := by
  intro emission atDepth
  refine ⟨rfl, ?_, atDepth⟩
  have flags := emission.shared.count_uniqueName_self "condition"
  have counters := emission.shared.count_uniqueName_of_ne
    (show "repeat" ≠ "condition" by decide)
  change Names.mk _ _ = Names.mk _ _
  exact congr (congrArg Names.mk flags) counters

theorem counter : Emits (σ := σ) depth (Emit.uniqueName "repeat") Naming.counter Eq := by
  intro emission atDepth
  refine ⟨rfl, ?_, atDepth⟩
  have flags := emission.shared.count_uniqueName_of_ne
    (show "condition" ≠ "repeat" by decide)
  have counters := emission.shared.count_uniqueName_self "repeat"
  change Names.mk _ _ = Names.mk _ _
  exact congr (congrArg Names.mk flags) counters

theorem nested {action : Emit σ α} {naming : Naming γ} {Shows : γ → α → Prop}
    (inner : Emits (depth + 1) action naming Shows) :
    Emits depth (Emit.nested action) naming Shows := by
  intro emission atDepth
  have derived : emission.scope.derive.depth = depth + 1 := by
    rw [Scope.depth_derive, atDepth]
  rcases inner { emission with scope := emission.scope.derive } derived with
    ⟨shows, sameNames, _⟩
  exact ⟨shows, sameNames, atDepth⟩

theorem declare (name : String) :
    Emits (σ := σ) depth (Emit.declare name) (Pure.pure ()) fun _ _ => True := by
  intro emission atDepth
  refine ⟨trivial, rfl, ?_⟩
  change (emission.scope.declare emission.shared name).2.depth = _
  rw [Scope.declare]
  split <;> exact atDepth

theorem onGenerator (change : σ → σ) :
    Emits depth (Emit.onGenerator change) (Pure.pure ()) fun _ _ => True :=
  fun _ atDepth => ⟨trivial, rfl, atDepth⟩

end Emits

end EventSheet
