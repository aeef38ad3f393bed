import EventSheet.Proofs.Lineage.Pass
import EventSheet.Workspace.Compile
import Mathlib.Data.List.Perm.Basic
namespace EventSheet

/-! # The nodes of a workspace

Names are at most one to a value, so that taking a value out takes out that value only; putting a
node in the place of another exchanges the two and leaves the rest. -/

/-! ## Values under names -/

namespace Named

variable {α : Type} {entries : Named α} {name : String} {value : α}

/-- No name stands for two values. -/
def Distinct (entries : Named α) : Prop := (entries.map Prod.fst).Nodup

theorem Distinct.without (distinct : entries.Distinct) (name : String) :
    (entries.without name).Distinct :=
  List.Nodup.sublist (List.filter_sublist.map _) distinct

theorem Distinct.put (distinct : entries.Distinct) (name : String) (value : α) :
    (entries.put name value).Distinct := by
  rw [Distinct, Named.put, List.map_append, List.nodup_append]
  refine ⟨distinct.without name, List.nodup_singleton _, ?_⟩
  intro other isOther same isSame
  rcases List.mem_map.mp isOther with ⟨entry, isEntry, rfl⟩
  rw [List.map_singleton, List.mem_singleton] at isSame
  rw [isSame]
  simpa using (List.mem_filter.mp isEntry).2

theorem map_fst_change (name : String) (edit : α → α) (entries : Named α) :
    (entries.change name edit).map Prod.fst = entries.map Prod.fst := by
  rw [change, List.map_map]
  apply List.map_congr_left
  intro entry _
  rw [Function.comp_apply]
  split <;> rfl

theorem Distinct.change (distinct : entries.Distinct) (name : String) (edit : α → α) :
    (entries.change name edit).Distinct := by
  rw [Distinct, map_fst_change]
  exact distinct

theorem without_of_missing (missing : entries.lookup name = none) :
    entries.without name = entries := by
  rw [without, List.filter_eq_self]
  intro entry isEntry
  have different := List.lookup_eq_none_iff.mp missing entry isEntry
  rw [bne_iff_ne] at different
  exact decide_eq_true (Ne.symm different)

/-- The value of a name and those under other names are all there is. -/
theorem perm_without (distinct : entries.Distinct) (found : entries.lookup name = some value) :
    entries.Perm ((name, value) :: entries.without name) := by
  induction entries with
  | nil => cases found
  | cons head tail induction =>
      obtain ⟨other, first⟩ := head
      have parts := List.nodup_cons.mp distinct
      by_cases same : name = other
      · subst same
        rw [List.lookup_cons_self] at found
        cases found
        have absent : tail.lookup name = none := by
          rw [List.lookup_eq_none_iff]
          intro entry isEntry
          rw [bne_iff_ne]
          rintro rfl
          exact parts.1 (List.mem_map.mpr ⟨entry, isEntry, rfl⟩)
        have whole : without name ((name, value) :: tail) = tail := by
          rw [without, List.filter_cons_of_neg (by simp), ← without, without_of_missing absent]
        rw [whole]
      · rw [List.lookup_cons, beq_false_of_ne same] at found
        have kept : without name ((other, first) :: tail) =
            (other, first) :: without name tail :=
          List.filter_cons_of_pos (by simpa using Ne.symm same)
        rw [kept]
        exact ((induction parts.2 found).cons _).trans (.swap _ _ _)

theorem perm_change (distinct : entries.Distinct) (found : entries.lookup name = some value)
    (edit : α → α) :
    (entries.change name edit).Perm ((name, edit value) :: entries.without name) := by
  have changed := (perm_without distinct found).map
    fun entry : String × α => if entry.1 = name then (entry.1, edit entry.2) else entry
  have kept : (entries.without name).map
      (fun entry : String × α => if entry.1 = name then (entry.1, edit entry.2) else entry) =
        (entries.without name).map id := by
    apply List.map_congr_left
    intro entry isEntry
    have different := (List.mem_filter.mp isEntry).2
    rw [if_neg (of_decide_eq_true different)]
    rfl
  rw [List.map_cons, kept, List.map_id, if_pos rfl] at changed
  exact changed

/-- The values of names, taken out one after the other up to a name that stands for none, and what
is left when every name stands for one. -/
def takeAll : List String → Named α → List α × Option (Named α)
  | [], entries => ([], some entries)
  | name :: rest, entries =>
      match entries.lookup name with
      | none => ([], none)
      | some value =>
          let (values, left) := takeAll rest (entries.without name)
          (value :: values, left)

end Named

/-! ## Nodes at places -/

variable {β : Type}

namespace Forest

theorem bonds_eq_flatMap (forest : Forest β) : bonds forest = forest.flatMap Node.bonds := by
  induction forest with
  | nil => rfl
  | cons head tail induction => rw [bonds_cons, induction, List.flatMap_cons]

theorem bonds_perm {left right : Forest β} (same : left.Perm right) :
    (bonds left).Perm (bonds right) := by
  rw [bonds_eq_flatMap, bonds_eq_flatMap]
  exact same.flatMap_right _

theorem bonds_modify {forest : Forest β} {position : Nat} {node : Node β}
    (found : forest[position]? = some node) (change : Node β → Node β) :
    bonds (forest.modify position change) = bonds (forest.take position) ++
      ((change node).bonds ++ bonds (forest.drop (position + 1))) := by
  rcases List.getElem?_eq_some_iff.mp found with ⟨inside, same⟩
  rw [List.modify_eq_take_cons_drop inside, same, bonds_append, bonds_cons]

theorem bonds_insert (position : Nat) (node : Node β) (forest : Forest β) :
    (bonds (forest.insert position node)).Perm (node.bonds ++ bonds forest) := by
  rw [← bonds_cons]
  exact bonds_perm (List.perm_insertIdx node forest (Nat.min_le_right _ _))

theorem bonds_remove {forest rest : Forest β} {position : Nat} {node : Node β}
    (removed : forest.remove? position = some (node, rest)) :
    (bonds forest).Perm (node.bonds ++ bonds rest) := by
  rw [remove?] at removed
  split at removed
  · next other found =>
      cases removed
      rcases List.getElem?_eq_some_iff.mp found with ⟨inside, rfl⟩
      rw [← bonds_cons]
      exact bonds_perm (List.getElem_cons_eraseIdx_perm inside).symm
  · cases removed

end Forest

section

variable {old new : Node β} {taken given : List Bond}

/-- What is exchanged for what in one node is exchanged in the tree it stands in. -/
theorem Node.bonds_modifyAt (exchanged : (new.bonds ++ given).Perm (old.bonds ++ taken)) :
    ∀ (place : Place) (node : Node β), node.atPlace? place = some old →
      ((node.modifyAt (fun _ => new) place).bonds ++ given).Perm (node.bonds ++ taken)
  | [], node, found => by
      cases found
      exact exchanged
  | position :: rest, ⟨event, subEvents⟩, found => by
      rcases exists_below_of_atPlace? found with ⟨child, isChild, below⟩
      have inside := List.perm_iff_count.mp (bonds_modifyAt exchanged rest child below)
      rw [modifyAt, Node.bonds_eq, Node.bonds_eq ⟨event, subEvents⟩,
        Forest.bonds_modify isChild, Forest.bonds_of_found isChild, List.perm_iff_count]
      intro bond
      have one := inside bond
      simp only [List.count_append, List.count_cons] at one ⊢
      omega

theorem Forest.bonds_modifyAt (exchanged : (new.bonds ++ given).Perm (old.bonds ++ taken))
    {place : Place} {forest : Forest β} (found : Forest.atPlace? place forest = some old) :
    (Forest.bonds (Forest.modifyAt (fun _ => new) place forest) ++ given).Perm
      (Forest.bonds forest ++ taken) := by
  rcases exists_of_atPlace? found with ⟨position, rest, node, rfl, isNode, below⟩
  have inside := List.perm_iff_count.mp (Node.bonds_modifyAt exchanged rest node below)
  rw [modifyAt, Forest.bonds_modify isNode, Forest.bonds_of_found isNode,
    List.perm_iff_count]
  intro bond
  have one := inside bond
  simp only [List.count_append] at one ⊢
  omega

end

/-! ## The node at a place -/

theorem Forest.members_eq_flatMap (forest : Forest β) :
    members forest = forest.flatMap Node.members := by
  induction forest with
  | nil => rfl
  | cons head tail induction => rw [members, induction, List.flatMap_cons]

/-- The events of a node of a forest are of the forest. -/
theorem Forest.members_subset {forest : Forest β} {node : Node β} (isNode : node ∈ forest) :
    node.members ⊆ members forest := by
  rw [members_eq_flatMap]
  exact fun _ isMember => List.mem_flatMap.mpr ⟨node, isNode, isMember⟩

theorem Node.mem_members_atPlace? {old : Node β} : ∀ (place : Place) (node : Node β),
    node.atPlace? place = some old → old.event ∈ node.members
  | [], node, found => by
      cases found
      rw [members_eq]
      exact List.mem_cons_self
  | position :: rest, node, found => by
      rcases exists_below_of_atPlace? found with ⟨child, isChild, below⟩
      rw [members_eq]
      exact List.mem_cons_of_mem _
        (Forest.members_subset (List.mem_of_getElem? isChild)
          (mem_members_atPlace? rest child below))

theorem Forest.mem_members_atPlace? {forest : Forest β} {place : Place} {old : Node β}
    (found : Forest.atPlace? place forest = some old) : old.event ∈ members forest := by
  rcases exists_of_atPlace? found with ⟨position, rest, node, rfl, isNode, below⟩
  exact members_subset (List.mem_of_getElem? isNode)
    (Node.mem_members_atPlace? rest node below)

end EventSheet
