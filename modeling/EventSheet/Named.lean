namespace EventSheet

/-! Values under names, at most one under each. -/

abbrev Named (α : Type) := List (String × α)

namespace Named

variable {α : Type}

def without (name : String) (entries : Named α) : Named α :=
  entries.filter fun entry => entry.1 ≠ name

/-- Put a value under a name, in place of the one that was there. -/
def put (name : String) (value : α) (entries : Named α) : Named α :=
  entries.without name ++ [(name, value)]

/-- Change the value of a name, if there is one. -/
def change (name : String) (edit : α → α) (entries : Named α) : Named α :=
  entries.map fun entry => if entry.1 = name then (entry.1, edit entry.2) else entry

@[simp] theorem lookup_without_self (name : String) (entries : Named α) :
    (entries.without name).lookup name = none := by
  simp only [without]
  induction entries with
  | nil => rfl
  | cons head tail induction =>
      obtain ⟨other, value⟩ := head
      by_cases same : other = name
      · simpa [List.filter, same] using induction
      · have different : (name == other) = false := by simp [Ne.symm same]
        simpa [List.filter, same, List.lookup_cons, different] using induction

theorem lookup_without_of_ne {name other : String} (entries : Named α)
    (different : other ≠ name) :
    (entries.without name).lookup other = entries.lookup other := by
  simp only [without]
  induction entries with
  | nil => rfl
  | cons head tail induction =>
      obtain ⟨key, value⟩ := head
      by_cases same : key = name
      · subst same
        have unequal : (other == key) = false := by simp [different]
        simpa [List.filter, List.lookup_cons, unequal] using induction
      · by_cases found : other = key
        · simp [same, found]
        · have unequal : (other == key) = false := by simp [found]
          simpa [List.filter, same, List.lookup_cons, unequal] using induction

@[simp] theorem lookup_put_self (name : String) (value : α) (entries : Named α) :
    (entries.put name value).lookup name = some value := by
  simp [put, List.lookup_append]

theorem lookup_put_of_ne {name other : String} (value : α) (entries : Named α)
    (different : other ≠ name) :
    (entries.put name value).lookup other = entries.lookup other := by
  have unequal : (other == name) = false := by simp [different]
  simp [put, List.lookup_append, List.lookup_cons, unequal, lookup_without_of_ne entries different]

end Named

end EventSheet
