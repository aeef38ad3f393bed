import EventSheet.Diagnostic
import EventSheet.Instruction
import EventSheet.Scope
namespace EventSheet.Codegen

/-! What events and generators share while code is generated. Emitting threads
three things: the generator's own state, the scope of the block being generated,
and what all scopes of the compilation share. -/

structure Emission (σ : Type) where
  generator : σ
  scope : Scope := {}
  shared : SharedScope := {}

abbrev Emit (σ : Type) := StateM (Emission σ)

namespace Emit

/-- A name no other call of this compilation gets. -/
def uniqueName {σ : Type} (stem : String) : Emit σ String := fun emission =>
  let (name, shared) := emission.shared.uniqueName stem
  (name, { emission with shared })

/-- Declare a name in the current scope. -/
def declare {σ : Type} (name : String) : Emit σ Bool := fun emission =>
  let (fresh, scope) := emission.scope.declare emission.shared name
  (fresh, { emission with scope })

/-- Run in a scope derived from the current one, which is as before afterwards. -/
def nested {σ α : Type} (inner : Emit σ α) : Emit σ α := fun emission =>
  let (result, after) := inner { emission with scope := emission.scope.derive }
  (result, { after with scope := emission.scope })

/-- Work on the generator's state alone. -/
def onGenerator {σ : Type} (change : σ → σ) : Emit σ Unit := fun emission =>
  ((), { emission with generator := change emission.generator })

/-- Emit in a member of a family of scopes, from a state of the generator on. The
answer comes with the generator's state afterwards. -/
def inFamily {σ α : Type} (action : Emit σ α) (generator : σ) (member : Nat) :
    StateM ScopeFamily (α × σ) := fun family =>
  let (result, after) :=
    action { generator, scope := family.scope member, shared := family.shared }
  ((result, after.generator),
    { family.setScope member after.scope with shared := after.shared })

end Emit

/-- A compiled condition list: the statements that evaluate it, and the name of
the boolean that holds the result. -/
structure CompiledConditions where
  code : String
  flag : String
deriving DecidableEq

/-- The part of a generator that events call. -/
structure Emitter (σ : Type) where
  conditions : InstructionList → Emit σ CompiledConditions
  actions : InstructionList → Emit σ String
  /-- Collect a problem instead of failing. -/
  report : Diagnostic → Emit σ Unit
  /-- One level of indentation of nested fragments; empty when the program is
  laid out once it is complete. -/
  indentUnit : String := "    "

end EventSheet.Codegen
