import EventSheet.Json.Decoder
namespace EventSheet.Json

/-! # Members by name

The members of an object whose names are all different are told apart by their names:
sorting them moves them about and changes nothing that is looked up. -/

variable {name other : String} {value : Json} {members : List (String × Json)}

/-! ## Putting in one member -/

theorem lookup_insertMember_self (name : String) (value : Json)
    (members : List (String × Json)) :
    (insertMember name value members).lookup name = some value := by
  induction members with
  | nil => rw [insertMember, List.lookup_cons_self]
  | cons head rest induction =>
      rcases head with ⟨first, firstValue⟩
      rw [insertMember]
      split
      · rw [List.lookup_cons_self]
      · split
        · rw [List.lookup_cons_self]
        · next different =>
            have unequal : (name == first) = false := by simp [different]
            rw [List.lookup_cons, unequal]
            exact induction

theorem lookup_insertMember_of_ne (different : other ≠ name) (value : Json)
    (members : List (String × Json)) :
    (insertMember name value members).lookup other = members.lookup other := by
  have unequal : (other == name) = false := by simp [different]
  induction members with
  | nil => rw [insertMember, List.lookup_cons, unequal]
  | cons head rest induction =>
      rcases head with ⟨first, firstValue⟩
      rw [insertMember]
      split
      · rw [List.lookup_cons, unequal]
      · split
        · next same => rw [List.lookup_cons, unequal, List.lookup_cons, ← same, unequal]
        · rw [List.lookup_cons, List.lookup_cons, induction]

theorem mem_insertMember {member : String × Json}
    (isMember : member ∈ insertMember name value members) :
    member = (name, value) ∨ member ∈ members := by
  induction members with
  | nil => exact .inl (List.mem_singleton.mp isMember)
  | cons head rest induction =>
      rcases head with ⟨first, firstValue⟩
      rw [insertMember] at isMember
      split at isMember
      · exact List.mem_cons.mp isMember
      · split at isMember
        · rcases List.mem_cons.mp isMember with same | behind
          · exact .inl same
          · exact .inr (List.mem_cons_of_mem _ behind)
        · rcases List.mem_cons.mp isMember with same | behind
          · exact .inr (List.mem_cons.mpr (.inl same))
          · rcases induction behind with new | old
            · exact .inl new
            · exact .inr (List.mem_cons_of_mem _ old)

/-! ## Name order -/

/-- Each member comes before those with greater names. -/
def InNameOrder (members : List (String × Json)) : Prop :=
  members.Pairwise fun first second => first.1 < second.1

/-- The names are all different. -/
def Distinct {α : Type} (members : List (String × α)) : Prop := (members.map Prod.fst).Nodup

theorem InNameOrder.distinct (inOrder : InNameOrder members) : Distinct members := by
  rw [Distinct, List.Nodup, List.pairwise_map]
  apply inOrder.imp
  intro first second less same
  rw [same] at less
  exact String.lt_irrefl _ less

theorem InNameOrder.insertMember (inOrder : InNameOrder members) (name : String)
    (value : Json) : InNameOrder (insertMember name value members) := by
  induction members with
  | nil => exact List.pairwise_singleton _ _
  | cons head rest induction =>
      rcases head with ⟨first, firstValue⟩
      rcases List.pairwise_cons.mp inOrder with ⟨least, restInOrder⟩
      rw [Json.insertMember]
      split
      · next less =>
          apply List.pairwise_cons.mpr ⟨?_, inOrder⟩
          intro member isMember
          rcases List.mem_cons.mp isMember with same | behind
          · rw [same]
            exact less
          · exact String.lt_trans less (least member behind)
      · next notLess =>
          split
          · next same =>
              subst same
              exact List.pairwise_cons.mpr ⟨least, restInOrder⟩
          · next different =>
              apply List.pairwise_cons.mpr ⟨?_, induction restInOrder⟩
              intro member isMember
              rcases mem_insertMember isMember with new | old
              · rw [new]
                exact Std.lt_of_le_of_ne (String.not_lt.mp notLess) (Ne.symm different)
              · exact least member old

theorem insertMember_of_greatest (greatest : ∀ member ∈ members, member.1 < name) :
    insertMember name value members = members ++ [(name, value)] := by
  induction members with
  | nil => rfl
  | cons head rest induction =>
      rcases head with ⟨first, firstValue⟩
      have less : first < name := greatest _ List.mem_cons_self
      have different : name ≠ first := fun same => String.lt_irrefl _ (same ▸ less)
      rw [insertMember, if_neg (String.lt_asymm less), if_neg different, List.cons_append,
        induction fun member behind => greatest member (List.mem_cons_of_mem _ behind)]

/-! ## Sorting -/

/-- Put in members one after the other. -/
def insertMembers (start members : List (String × Json)) : List (String × Json) :=
  members.foldl (fun sorted member => insertMember member.1 member.2 sorted) start

theorem insertMembers_cons (start rest : List (String × Json)) (head : String × Json) :
    insertMembers start (head :: rest) = insertMembers (insertMember head.1 head.2 start) rest :=
  rfl

theorem lookup_insertMembers (start : List (String × Json)) (distinct : Distinct members)
    (name : String) :
    (insertMembers start members).lookup name = (members.lookup name).or (start.lookup name) := by
  induction members generalizing start with
  | nil => rfl
  | cons head rest induction =>
      rcases head with ⟨first, firstValue⟩
      rcases List.nodup_cons.mp distinct with ⟨fresh, restDistinct⟩
      rw [insertMembers_cons, induction _ restDistinct, List.lookup_cons]
      by_cases same : name = first
      · subst same
        have missing : rest.lookup name = none := by
          rw [List.lookup_eq_none_iff]
          intro member isMember
          simp only [bne_iff_ne, ne_eq]
          exact fun same => fresh (List.mem_map.mpr ⟨member, isMember, same.symm⟩)
        rw [missing, lookup_insertMember_self, beq_self_eq_true]
        rfl
      · have unequal : (name == first) = false := by simp [same]
        rw [lookup_insertMember_of_ne same, unequal]

theorem mem_insertMembers {members start : List (String × Json)} {member : String × Json}
    (isMember : member ∈ insertMembers start members) : member ∈ start ∨ member ∈ members := by
  induction members generalizing start with
  | nil => exact .inl isMember
  | cons head tail induction =>
      rcases induction isMember with inStart | inTail
      · rcases mem_insertMember inStart with same | isOld
        · rw [same]
          exact .inr List.mem_cons_self
        · exact .inl isOld
      · exact .inr (List.mem_cons_of_mem _ inTail)

theorem InNameOrder.insertMembers {start : List (String × Json)} (inOrder : InNameOrder start)
    (members : List (String × Json)) : InNameOrder (insertMembers start members) := by
  induction members generalizing start with
  | nil => exact inOrder
  | cons head rest induction => exact induction (inOrder.insertMember head.1 head.2)

theorem insertMembers_of_inNameOrder {start : List (String × Json)}
    (inOrder : InNameOrder (start ++ members)) :
    insertMembers start members = start ++ members := by
  induction members generalizing start with
  | nil => rw [List.append_nil, insertMembers, List.foldl_nil]
  | cons head rest induction =>
      have greatest : ∀ member ∈ start, member.1 < head.1 := fun member before =>
        (List.pairwise_append.mp inOrder).2.2 member before head List.mem_cons_self
      have split : start ++ head :: rest = start ++ [head] ++ rest := by
        rw [List.append_assoc, List.singleton_append]
      rw [split] at inOrder ⊢
      rw [insertMembers_cons, insertMember_of_greatest greatest]
      exact induction inOrder

theorem inNameOrder_sortMembers (members : List (String × Json)) :
    InNameOrder (sortMembers members) :=
  have empty : InNameOrder [] := List.Pairwise.nil
  empty.insertMembers members

theorem sortMembers_of_inNameOrder (inOrder : InNameOrder members) :
    sortMembers members = members := by
  rw [← List.nil_append members] at inOrder
  exact insertMembers_of_inNameOrder inOrder

theorem lookup_sortMembers (distinct : Distinct members) (name : String) :
    (sortMembers members).lookup name = members.lookup name := by
  have found := lookup_insertMembers [] distinct name
  rwa [List.lookup_nil, Option.or_none] at found

/-! ## Sorting at every depth -/

theorem sortedMembers_eq_map (members : List (String × Json)) :
    sortedMembers members = members.map fun member => (member.1, sorted member.2) := by
  induction members with
  | nil => rfl
  | cons head rest induction => rw [sortedMembers, induction, List.map_cons]

theorem sortedItems_eq_map (items : List Json) : sortedItems items = items.map sorted := by
  induction items with
  | nil => rfl
  | cons head rest induction => rw [sortedItems, induction, List.map_cons]

theorem Distinct.sortedMembers (distinct : Distinct members) :
    Distinct (sortedMembers members) := by
  rw [Distinct, sortedMembers_eq_map, List.map_map]
  exact distinct

theorem lookup_sortedMembers (members : List (String × Json)) (name : String) :
    (sortedMembers members).lookup name = (members.lookup name).map sorted := by
  induction members with
  | nil => rfl
  | cons head rest induction =>
      rcases head with ⟨first, firstValue⟩
      rw [sortedMembers, List.lookup_cons, List.lookup_cons]
      cases name == first with
      | true => rfl
      | false => exact induction

theorem sortedMembers_insertMember (name : String) (value : Json)
    (members : List (String × Json)) :
    sortedMembers (insertMember name value members) =
      insertMember name (sorted value) (sortedMembers members) := by
  induction members with
  | nil => rfl
  | cons head rest induction =>
      rcases head with ⟨first, firstValue⟩
      rw [insertMember, sortedMembers, insertMember]
      split
      · rfl
      · split
        · rfl
        · rw [sortedMembers, induction]

theorem sortedMembers_sortMembers (members : List (String × Json)) :
    sortedMembers (sortMembers members) = sortMembers (sortedMembers members) := by
  have generalized : ∀ start, sortedMembers (insertMembers start members) =
      insertMembers (sortedMembers start) (sortedMembers members) := by
    induction members with
    | nil => exact fun start => rfl
    | cons head rest induction =>
        intro start
        rw [insertMembers_cons, induction, sortedMembers_insertMember, sortedMembers,
          insertMembers_cons]
  exact generalized []

mutual
theorem sorted_sorted : ∀ value : Json, value.sorted.sorted = value.sorted
  | .null | .bool _ | .number _ | .string _ => rfl
  | .array items => by rw [sorted, sorted, sortedItems_sortedItems]
  | .object members => by
      rw [sorted, sorted, sortedMembers_sortMembers, sortedMembers_sortedMembers,
        sortMembers_of_inNameOrder (inNameOrder_sortMembers _)]

theorem sortedItems_sortedItems : ∀ items : List Json,
    sortedItems (sortedItems items) = sortedItems items
  | [] => rfl
  | head :: tail => by
      rw [sortedItems, sortedItems, sorted_sorted head, sortedItems_sortedItems tail]

theorem sortedMembers_sortedMembers : ∀ members : List (String × Json),
    sortedMembers (sortedMembers members) = sortedMembers members
  | [] => rfl
  | (name, value) :: tail => by
      rw [sortedMembers, sortedMembers, sorted_sorted value, sortedMembers_sortedMembers tail]
end

end EventSheet.Json
