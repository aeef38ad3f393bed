import EventSheet.Behavior
import EventSheet.Codegen.GuardedBlock
namespace EventSheet

/-! Generators. A generator turns lists and forests into source text. It is given
a forest as nodes paired with the action that generates each of them; which of
those actions it runs, and what it adds around them, is its own choice. -/

structure Codegen.Generator (β σ : Type) extends Codegen.Emitter σ where
  forest : List (Node β × Codegen.Emit σ String) → Codegen.Emit σ String

open Codegen

mutual
/-- Generate the code of a node and its sub-events. Disabled and non-executable
nodes produce nothing and touch neither the generator nor the scope. -/
def Node.generate {β σ : Type} [Behavior β] (generator : Generator β σ) :
    Node β → Emit σ String
  | ⟨event, subEvents⟩ =>
      if event.disabled || !EventKind.isExecutable event.behavior then return ""
      else
        let nested := Forest.generators generator subEvents
        Behavior.generate event.behavior generator.toEmitter
          (if nested.isEmpty then none else some (generator.forest nested))

/-- The nodes of a forest, each with the action that generates it. -/
def Forest.generators {β σ : Type} [Behavior β] (generator : Generator β σ) :
    List (Node β) → List (Node β × Emit σ String)
  | [] => []
  | head :: tail => (head, head.generate generator) :: Forest.generators generator tail
end

/-- Generate a forest the way its generator does. -/
def Forest.generate {β σ : Type} [Behavior β] (generator : Generator β σ)
    (forest : Forest β) : Emit σ String :=
  generator.forest (Forest.generators generator forest)

@[simp] theorem Forest.map_fst_generators {β σ : Type} [Behavior β]
    (generator : Generator β σ) (forest : Forest β) :
    (Forest.generators generator forest).map Prod.fst = forest := by
  induction forest with
  | nil => rfl
  | cons head tail induction => simp [Forest.generators, induction]

end EventSheet
