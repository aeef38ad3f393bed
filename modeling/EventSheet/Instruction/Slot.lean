import EventSheet.Instruction
namespace EventSheet

/-! Slots: where the expressions of an instruction stand. The slots are looked up before
any expression is edited, and then edited one after the other. A stack keeps track of the
nested instructions that are still to be looked at. -/

/-- A position among the parameters of an instruction, and the positions of nested
instructions that lead to that instruction, the outermost first. -/
structure Slot where
  path : List Nat
  parameter : Nat
deriving DecidableEq

mutual
/-- The number of instructions of a tree. -/
def Instruction.count : Instruction → Nat
  | ⟨_, _, _, nested⟩ => Instruction.countAll nested + 1

def Instruction.countAll : List Instruction → Nat
  | [] => 0
  | head :: tail => head.count + Instruction.countAll tail
end

namespace Slot

/-- Instructions that are still to be looked at, the next one first, each with the path
that leads to it. -/
abbrev Pending := List (List Nat × Instruction)

/-- What is left to look at. -/
def work (pending : Pending) : Nat := Instruction.countAll (pending.map Prod.snd)

/-- Put nested instructions on the stack, the last one first. -/
def push (path : List Nat) (nested : List Instruction) (pending : Pending) : Pending :=
  nested.zipIdx.foldr (fun child pending => (path ++ [child.2], child.1) :: pending) pending

theorem foldr_push (path : List Nat) (position : Nat) (nested : List Instruction)
    (pending : Pending) :
    (nested.zipIdx position).foldr
        (fun child pending => (path ++ [child.2], child.1) :: pending) pending =
      (nested.zipIdx position).map (fun child => (path ++ [child.2], child.1)) ++ pending := by
  induction nested generalizing position with
  | nil => rfl
  | cons head tail induction => rw [List.zipIdx_cons, List.foldr_cons, induction]; rfl

theorem countAll_append (left right : List Instruction) :
    Instruction.countAll (left ++ right) =
      Instruction.countAll left + Instruction.countAll right := by
  induction left with
  | nil => simp [Instruction.countAll]
  | cons head tail induction => simp [Instruction.countAll, induction, Nat.add_assoc]

theorem work_push (path : List Nat) (nested : List Instruction) (pending : Pending) :
    work (push path nested pending) = Instruction.countAll nested + work pending := by
  rw [push, foldr_push, work, List.map_append, List.map_map, countAll_append]
  congr 2
  exact List.zipIdx_map_fst 0 nested

/-- The slots of the pending instructions. Those of an instruction's own parameters come
first, then what is nested in it. -/
def collect : Pending → List Slot
  | [] => []
  | (path, ⟨_, parameters, _, nested⟩) :: pending =>
      parameters.zipIdx.map (fun parameter => ⟨path, parameter.2⟩) ++
        collect (push path nested pending)
termination_by pending => work pending
decreasing_by
  rw [work_push]
  simp only [work, List.map_cons, Instruction.countAll, Instruction.count]
  omega

end Slot

/-- Edit the item at a position; nothing happens when there is none. -/
def editItem {State α : Type} (edit : α → StateM State α) :
    Nat → List α → StateM State (List α)
  | _, [] => return []
  | 0, head :: tail => return (← edit head) :: tail
  | position + 1, head :: tail => return head :: (← editItem edit position tail)

namespace Instruction

variable {State : Type} (edit : Expression → StateM State Expression)

/-- All slots of an instruction, its own first. -/
def slots (instruction : Instruction) : List Slot := Slot.collect [([], instruction)]

/-- Edit the parameter at a position of the instruction a path leads to. -/
def editAt (parameter : Nat) : List Nat → Instruction → StateM State Instruction
  | [], ⟨name, parameters, inverted, nested⟩ => do
      let parameters ← editItem edit parameter parameters
      return ⟨name, parameters, inverted, nested⟩
  | position :: path, ⟨name, parameters, inverted, nested⟩ => do
      let nested ← editItem (editAt parameter path) position nested
      return ⟨name, parameters, inverted, nested⟩

def editSlot (instruction : Instruction) (slot : Slot) : StateM State Instruction :=
  instruction.editAt edit slot.parameter slot.path

/-- Hand every expression to `edit`, in the order of the slots; the edit may carry a state
from one expression to the next. -/
def editExpressions (instruction : Instruction) : StateM State Instruction :=
  instruction.slots.foldlM (editSlot edit) instruction

/-- Edit the expressions of instructions one after the other. -/
def editAll (instructions : List Instruction) : StateM State (List Instruction) :=
  instructions.mapM (editExpressions edit)

end Instruction

/-! ## Slots by recursion -/

namespace Slot

/-- The slot as it is seen from further outside. -/
def behind (path : List Nat) (slot : Slot) : Slot := { slot with path := path ++ slot.path }

end Slot

mutual
/-- The slots of an instruction, those of nested instructions one instruction after the
other. -/
def Instruction.slotTree : Instruction → List Slot
  | ⟨_, parameters, _, nested⟩ =>
      parameters.zipIdx.map (fun parameter => ⟨[], parameter.2⟩) ++
        Instruction.slotTrees 0 nested

def Instruction.slotTrees (position : Nat) : List Instruction → List Slot
  | [] => []
  | head :: tail =>
      head.slotTree.map (Slot.behind [position]) ++ Instruction.slotTrees (position + 1) tail
end

mutual
theorem Slot.collect_cons : ∀ (instruction : Instruction) (path : List Nat) (pending : Pending),
    collect ((path, instruction) :: pending) =
      instruction.slotTree.map (behind path) ++ collect pending
  | ⟨name, parameters, inverted, nested⟩, path, pending => by
      rw [collect, push, foldr_push, Slot.collect_nested nested, Instruction.slotTree,
        List.map_append, List.map_map, List.append_assoc]
      congr 1
      refine List.map_congr_left fun parameter _ => ?_
      rw [Function.comp_apply, behind, List.append_nil]

/-- Nested instructions that were pushed come off the stack in their order. -/
theorem Slot.collect_nested : ∀ (nested : List Instruction) (position : Nat) (path : List Nat)
    (pending : Pending),
    collect ((nested.zipIdx position).map (fun child => (path ++ [child.2], child.1)) ++ pending) =
      (Instruction.slotTrees position nested).map (behind path) ++ collect pending
  | [], _, _, _ => rfl
  | head :: tail, position, path, pending => by
      have deeper : behind (path ++ [position]) = behind path ∘ behind [position] := by
        funext slot
        exact congrArg (Slot.mk · slot.parameter) (List.append_assoc path [position] slot.path)
      rw [List.zipIdx_cons, List.map_cons, List.cons_append, Slot.collect_cons head,
        Slot.collect_nested tail, Instruction.slotTrees, List.map_append, List.map_map, deeper,
        List.append_assoc]
end

namespace Instruction

/-- The slots found with a stack are those found by recursion. -/
theorem slots_eq_slotTree (instruction : Instruction) :
    instruction.slots = instruction.slotTree := by
  have same : Slot.behind [] = id := rfl
  rw [slots, Slot.collect_cons, Slot.collect, List.append_nil, same, List.map_id]

/-! ## Editing by recursion -/

variable {State : Type} (edit : Expression → StateM State Expression)

theorem editItem_append {α : Type} (edit : α → StateM State α) (done : List α) (item : α)
    (rest : List α) :
    editItem edit done.length (done ++ item :: rest) = do
      let item ← edit item
      return done ++ item :: rest := by
  induction done with
  | nil => rfl
  | cons head tail induction =>
      rw [List.length_cons, List.cons_append, editItem, induction]
      simp only [bind_assoc, pure_bind, List.cons_append]

variable (name : String) (inverted : Bool)

/-- Parameters behind others are edited one after the other. -/
theorem foldlM_parameters (nested : List Instruction) (done parameters : List Expression) :
    ((parameters.zipIdx done.length).map fun parameter => (⟨[], parameter.2⟩ : Slot)).foldlM
        (editSlot edit) ⟨name, done ++ parameters, inverted, nested⟩ = do
      let parameters ← parameters.mapM edit
      return ⟨name, done ++ parameters, inverted, nested⟩ := by
  induction parameters generalizing done with
  | nil => simp
  | cons head tail induction =>
      have first : editSlot edit ⟨name, done ++ head :: tail, inverted, nested⟩ ⟨[], done.length⟩ =
          do
            let head ← edit head
            return ⟨name, done ++ head :: tail, inverted, nested⟩ := by
        rw [editSlot, editAt, editItem_append]
        simp only [bind_assoc, pure_bind]
      have rest (item : Expression) := induction (done ++ [item])
      simp only [List.length_append, List.length_singleton, List.append_assoc,
        List.singleton_append] at rest
      rw [List.zipIdx_cons, List.map_cons, List.foldlM_cons, first, List.mapM_cons]
      simp only [bind_assoc, pure_bind, rest]

/-- What is edited behind a position is edited in the nested instruction there. -/
theorem foldlM_behind (parameters : List Expression) (slots : List Slot)
    (done : List Instruction) (child : Instruction) (rest : List Instruction) :
    (slots.map (Slot.behind [done.length])).foldlM (editSlot edit)
        ⟨name, parameters, inverted, done ++ child :: rest⟩ = do
      let child ← slots.foldlM (editSlot edit) child
      return ⟨name, parameters, inverted, done ++ child :: rest⟩ := by
  induction slots generalizing child with
  | nil => simp
  | cons slot others induction =>
      have first : editSlot edit ⟨name, parameters, inverted, done ++ child :: rest⟩
          (slot.behind [done.length]) = do
            let child ← editSlot edit child slot
            return ⟨name, parameters, inverted, done ++ child :: rest⟩ := by
        rw [editSlot, Slot.behind, List.singleton_append, editAt, editItem_append]
        simp only [bind_assoc, pure_bind]
        rfl
      rw [List.map_cons, List.foldlM_cons, first, List.foldlM_cons]
      simp only [bind_assoc, pure_bind, induction]

/-- Nested instructions behind others are edited one after the other. -/
theorem foldlM_nested (parameters : List Expression) (done nested : List Instruction) :
    (slotTrees done.length nested).foldlM (editSlot edit)
        ⟨name, parameters, inverted, done ++ nested⟩ = do
      let nested ← editAll edit nested
      return ⟨name, parameters, inverted, done ++ nested⟩ := by
  induction nested generalizing done with
  | nil => simp [slotTrees, editAll]
  | cons head tail induction =>
      have rest (child : Instruction) := induction (done ++ [child])
      simp only [List.length_append, List.length_singleton, List.append_assoc,
        List.singleton_append] at rest
      rw [slotTrees, List.foldlM_append, foldlM_behind, editAll, List.mapM_cons, ← editAll,
        editExpressions, slots_eq_slotTree]
      simp only [bind_assoc, pure_bind, rest]

/-- Editing slot by slot is editing the parameters, and then the nested instructions one after the
other. -/
theorem editExpressions_eq (parameters : List Expression) (nested : List Instruction) :
    editExpressions edit ⟨name, parameters, inverted, nested⟩ = do
      let parameters ← parameters.mapM edit
      let nested ← editAll edit nested
      return ⟨name, parameters, inverted, nested⟩ := by
  have own := foldlM_parameters edit name inverted nested [] parameters
  have inside (parameters : List Expression) :=
    foldlM_nested edit name inverted parameters [] nested
  simp only [List.length_nil, List.nil_append] at own inside
  rw [editExpressions, slots_eq_slotTree, slotTree, List.foldlM_append, own]
  simp only [bind_assoc, pure_bind, inside]

end Instruction

end EventSheet
