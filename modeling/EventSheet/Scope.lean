namespace EventSheet

/-! Scopes of generated code. A scope holds the names declared in one block. A
scope derived from it sees the names it held at that moment; siblings see
nothing of each other. Names shared by the whole compilation, and the counters
behind unique names, belong to the family of scopes derived from one root. -/

/-- Names and counters common to all scopes of one compilation. -/
structure SharedScope where
  /-- Sorted by code points, without repetitions. -/
  declarations : List String := []
  counters : List (String × Nat) := []

structure Scope where
  /-- The number of blocks around this one. -/
  depth : Nat := 0
  /-- Names declared in this block, oldest first. -/
  declared : List String := []
  /-- Names the enclosing blocks held when this one was derived. -/
  inherited : List String := []

namespace SharedScope

def insertSorted (name : String) : List String → List String
  | [] => [name]
  | head :: tail =>
      if name < head then name :: head :: tail
      else if name = head then head :: tail
      else head :: insertSorted name tail

/-- Declare a name for every scope; false when it was declared so already. -/
def declare (shared : SharedScope) (name : String) : Bool × SharedScope :=
  (!shared.declarations.contains name,
    { shared with declarations := insertSorted name shared.declarations })

/-- How many unique names of a stem were handed out. -/
def count (shared : SharedScope) (stem : String) : Nat :=
  (shared.counters.lookup stem).getD 0

def setCount (stem : String) (count : Nat) : List (String × Nat) → List (String × Nat)
  | [] => [(stem, count)]
  | (other, number) :: rest =>
      if other = stem then (stem, count) :: rest
      else (other, number) :: setCount stem count rest

/-- The stem, an underscore and the number of names of that stem handed out
before. -/
def numbered (stem : String) (number : Nat) : String := stem ++ "_" ++ Nat.repr number

def uniqueName (shared : SharedScope) (stem : String) : String × SharedScope :=
  let number := shared.count stem
  (numbered stem number,
    { shared with counters := setCount stem (number + 1) shared.counters })

end SharedScope

namespace Scope

/-- The scope of a nested block. -/
def derive (scope : Scope) : Scope :=
  { depth := scope.depth + 1, inherited := scope.inherited ++ scope.declared }

/-- A name is visible when this block, an enclosing one or the whole compilation
declared it. -/
def sees (scope : Scope) (shared : SharedScope) (name : String) : Bool :=
  scope.declared.contains name || scope.inherited.contains name ||
    shared.declarations.contains name

/-- Declare a name in this block; false when it was visible already. -/
def declare (scope : Scope) (shared : SharedScope) (name : String) : Bool × Scope :=
  if scope.sees shared name then (false, scope)
  else (true, { scope with declared := scope.declared ++ [name] })

end Scope

/-! ## Families -/

/-- The scopes derived, directly or not, from one root, which is the first. A
member is named by its position. -/
structure ScopeFamily where
  shared : SharedScope := {}
  scopes : List Scope := [{}]

namespace ScopeFamily

def scope (family : ScopeFamily) (member : Nat) : Scope :=
  (family.scopes[member]?).getD {}

def setScope (family : ScopeFamily) (member : Nat) (scope : Scope) : ScopeFamily :=
  { family with scopes := family.scopes.set member scope }

/-- Derive a new member from a member; the answer names it. -/
def derive (family : ScopeFamily) (member : Nat) : Nat × ScopeFamily :=
  (family.scopes.length,
    { family with scopes := family.scopes ++ [(family.scope member).derive] })

def sees (family : ScopeFamily) (member : Nat) (name : String) : Bool :=
  (family.scope member).sees family.shared name

def declare (family : ScopeFamily) (member : Nat) (name : String) : Bool × ScopeFamily :=
  let (fresh, scope) := (family.scope member).declare family.shared name
  (fresh, family.setScope member scope)

def declareShared (family : ScopeFamily) (name : String) : Bool × ScopeFamily :=
  let (fresh, shared) := family.shared.declare name
  (fresh, { family with shared })

def uniqueName (family : ScopeFamily) (stem : String) : String × ScopeFamily :=
  let (name, shared) := family.shared.uniqueName stem
  (name, { family with shared })

end ScopeFamily

@[simp] theorem Scope.depth_derive (scope : Scope) :
    scope.derive.depth = scope.depth + 1 := rfl

@[simp] theorem Scope.declared_derive (scope : Scope) : scope.derive.declared = [] := rfl

@[simp] theorem Scope.inherited_derive (scope : Scope) :
    scope.derive.inherited = scope.inherited ++ scope.declared := rfl

/-! ## What comes into sight -/

theorem SharedScope.mem_insertSorted {name other : String} {names : List String} :
    other ∈ insertSorted name names ↔ other = name ∨ other ∈ names := by
  induction names with
  | nil => simp [insertSorted]
  | cons head tail induction =>
      rw [insertSorted]
      split
      · exact List.mem_cons
      · split
        · simp_all
        · simp only [List.mem_cons, induction]
          exact or_left_comm

namespace Scope

variable {scope : Scope} {shared : SharedScope}

/-- A block begins with the names of those around it in sight. -/
theorem sees_derive (name : String) : scope.derive.sees shared name = scope.sees shared name := by
  simp only [sees, declared_derive, inherited_derive, List.contains_append, List.contains_nil,
    Bool.false_or]
  rw [Bool.or_comm (scope.inherited.contains name)]

theorem sees_declaring (name other : String) :
    ({ scope with declared := scope.declared ++ [name] } : Scope).sees shared other = true ↔
      other = name ∨ scope.sees shared other = true := by
  simp only [sees, Bool.or_eq_true, List.contains_iff_mem, List.mem_append, List.mem_singleton]
  grind

theorem sees_declare (name other : String) :
    (scope.declare shared name).2.sees shared other = true ↔
      other = name ∨ scope.sees shared other = true := by
  rw [declare]
  split
  · rename_i isSeen
    exact ⟨.inr, fun seen => seen.elim (fun same => same ▸ isSeen) id⟩
  · exact sees_declaring name other

theorem sees_declareShared (name other : String) :
    scope.sees (shared.declare name).2 other = true ↔
      other = name ∨ scope.sees shared other = true := by
  simp only [sees, SharedScope.declare, Bool.or_eq_true, List.contains_iff_mem,
    SharedScope.mem_insertSorted]
  grind

end Scope

end EventSheet
