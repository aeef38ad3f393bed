import EventSheet.Named
namespace EventSheet

/-! Values that several names can stand for. What is done to a value under one of
its names is seen under all of them. -/

structure Shared (α : Type) where
  slots : Named Nat := []
  values : Array α := #[]

namespace Shared

variable {α : Type}

def slot? (shared : Shared α) (name : String) : Option Nat := shared.slots.lookup name

def find? (shared : Shared α) (name : String) : Option α :=
  (shared.slot? name).bind (shared.values[·]?)

/-- A value that no name stands for yet; the answer is its slot. -/
def add (value : α) : StateM (Shared α) Nat := fun shared =>
  (shared.values.size, { shared with values := shared.values.push value })

/-- Let a name stand for the value of a slot. -/
def name (name : String) (slot : Nat) : StateM (Shared α) Unit :=
  modify fun shared => { shared with slots := shared.slots.put name slot }

/-- A value under a new name. -/
def addNamed (newName : String) (value : α) : StateM (Shared α) Nat := do
  let slot ← add value
  name newName slot
  return slot

/-- Work on the value of a slot; `default` stands for the one that is not
there. -/
def update (default : α) (slot : Nat) {γ : Type} (action : StateM α γ) : StateM (Shared α) γ :=
  fun shared =>
    let (result, value) := action (shared.values[slot]?.getD default)
    (result, { shared with values := shared.values.setIfInBounds slot value })

end Shared

end EventSheet
