import EventSheet.Proofs.Json.Members
import Mathlib.Data.List.Forall2
namespace EventSheet.Json

/-! # Decoding values

What a decoder reads off a value when it may enter as many containers as the value has nested
in one another. Records are read member by member. -/

/-- How many containers are nested in one another. -/
def nesting (json : Json) : Nat := (toDocument json).depth

theorem itemDocuments_eq_map (items : List Json) : itemDocuments items = items.map toDocument := by
  induction items with
  | nil => rfl
  | cons head rest induction => rw [itemDocuments, induction, List.map_cons]

theorem nesting_array_pos (items : List Json) : 0 < (Json.array items).nesting := by
  rw [nesting, toDocument, Document.depth]
  exact Nat.succ_pos _

theorem nesting_object_pos (members : List (String × Json)) :
    0 < (Json.object members).nesting := by
  rw [nesting, toDocument, Document.depth]
  exact Nat.succ_pos _

theorem nesting_lt_array {item : Json} {items : List Json} (isItem : item ∈ items) :
    item.nesting < (Json.array items).nesting := by
  rw [nesting, nesting, toDocument, Document.depth, Nat.lt_succ_iff]
  induction items with
  | nil => cases isItem
  | cons head rest induction =>
      rw [itemDocuments, Document.itemsDepth]
      rcases List.mem_cons.mp isItem with same | behind
      · rw [same]
        exact Nat.le_max_left _ _
      · exact Nat.le_trans (induction behind) (Nat.le_max_right _ _)

theorem nesting_lt_object {name : String} {value : Json} {members : List (String × Json)}
    (found : members.lookup name = some value) :
    value.nesting < (Json.object members).nesting := by
  rw [nesting, nesting, toDocument, Document.depth, Nat.lt_succ_iff]
  induction members with
  | nil => cases found
  | cons head rest induction =>
      rcases head with ⟨first, firstValue⟩
      rw [memberDocuments, Document.membersDepth]
      rw [List.lookup_cons] at found
      cases same : name == first with
      | true =>
          simp only [same, Option.some.injEq] at found
          rw [found]
          exact Nat.le_max_left _ _
      | false =>
          simp only [same] at found
          exact Nat.le_trans (induction found) (Nat.le_max_right _ _)

namespace Decoder

variable {α : Type}

/-- The decoder reads the value off the JSON, whatever nesting it is allowed beyond that of the
JSON. -/
def Reads (decoder : Decoder α) (json : Json) (value : α) : Prop :=
  ∀ levels, json.nesting ≤ levels → decoder levels (toDocument json) = some value

theorem Reads.ofValue? {decoder : Decoder α} {json : Json} {value : α}
    (reads : Reads decoder json value) : ofValue? decoder json = some value :=
  reads _ (Nat.le_refl _)

theorem reads_string (text : String) : Reads string (.string text) text := fun _ _ => rfl

theorem reads_bool (value : Bool) : Reads bool (.bool value) value := fun _ _ => rfl

theorem reads_natBelow {bound value : Nat} (below : value < bound) :
    Reads (natBelow bound) (.nat value) value := by
  intro levels _
  exact if_pos below

theorem Reads.list {item : Decoder α} {items : List Json} {values : List α}
    (each : List.Forall₂ (Reads item) items values) :
    Reads (list item) (.array items) values := by
  intro levels fits
  cases levels with
  | zero => exact absurd fits (Nat.not_le_of_lt (nesting_array_pos items))
  | succ levels =>
      have within : ∀ json ∈ items, json.nesting ≤ levels := fun json isItem =>
        Nat.le_of_lt_succ (Nat.lt_of_lt_of_le (nesting_lt_array isItem) fits)
      rw [toDocument, Decoder.list, itemDocuments_eq_map]
      clear fits
      induction each with
      | nil => rfl
      | cons reads _ induction =>
          rw [List.map_cons, List.mapM_cons, reads _ (within _ List.mem_cons_self),
            induction fun json isItem => within json (List.mem_cons_of_mem _ isItem)]
          rfl

/-! ## Records -/

/-- What a record holds for a field that was looked up. -/
def Entry.ofOption : Option Json → Entry
  | some value => .present (toDocument value)
  | none => .absent

theorem filter_memberDocuments {members : List (String × Json)} (distinct : Distinct members)
    (name : String) :
    (memberDocuments members).filter (fun member => member.1 = some name) =
      (members.lookup name).toList.map fun value => (some name, toDocument value) := by
  induction members with
  | nil => rfl
  | cons head rest induction =>
      rcases head with ⟨first, firstValue⟩
      rcases List.nodup_cons.mp distinct with ⟨fresh, restDistinct⟩
      rw [memberDocuments, List.lookup_cons]
      by_cases same : first = name
      · subst same
        have missing : rest.lookup first = none := by
          rw [List.lookup_eq_none_iff]
          intro member isMember
          simp only [bne_iff_ne, ne_eq]
          exact fun same => fresh (List.mem_map.mpr ⟨member, isMember, same.symm⟩)
        rw [List.filter_cons_of_pos (by simp), induction restDistinct, missing,
          beq_self_eq_true]
        rfl
      · have unequal : (name == first) = false := by simp [Ne.symm same]
        rw [List.filter_cons_of_neg (by simp [same]), induction restDistinct, unequal]

theorem uniqueMember?_memberDocuments {members : List (String × Json)}
    (distinct : Distinct members) (name : String) :
    uniqueMember? name (memberDocuments members) =
      some (Entry.ofOption (members.lookup name)) := by
  rw [uniqueMember?, filter_memberDocuments distinct]
  cases members.lookup name <;> rfl

theorem fields?_object {members : List (String × Json)} (distinct : Distinct members)
    (names : List String) :
    fields? names (toDocument (.object members)) =
      some (names.map fun name => Entry.ofOption (members.lookup name)) := by
  have named : (memberDocuments members).all (fun member => member.1.isSome) = true := by
    clear distinct
    induction members with
    | nil => rfl
    | cons head rest induction =>
        rw [memberDocuments, List.all_cons, induction]
        rfl
  rw [toDocument, fields?, if_pos named,
    funext fun name => uniqueMember?_memberDocuments distinct name]
  exact List.mapM_pure

theorem reads_record {names : List String} {build : Nat → List Entry → Option α}
    {members : List (String × Json)} {entries : List (Option Json)} {value : α}
    (distinct : Distinct members)
    (found : (names.map fun name => members.lookup name) = entries)
    (built : ∀ levels, (∀ json, some json ∈ entries → json.nesting ≤ levels) →
      build levels (entries.map Entry.ofOption) = some value) :
    Reads (record names build) (.object members) value := by
  intro levels fits
  cases levels with
  | zero => exact absurd fits (Nat.not_le_of_lt (nesting_object_pos members))
  | succ levels =>
      have entered : (names.map fun name => Entry.ofOption (members.lookup name)) =
          entries.map Entry.ofOption := by
        rw [← found, List.map_map]
        rfl
      rw [record, fields?_object distinct, Option.bind_some, entered]
      apply built
      intro json isEntry
      rw [← found] at isEntry
      rcases List.mem_map.mp isEntry with ⟨name, _, isFound⟩
      exact Nat.le_of_lt_succ (Nat.lt_of_lt_of_le (nesting_lt_object isFound) fits)

/-- A record written with sorted members is read by the names it had before. -/
theorem reads_sorted_record {names : List String} {build : Nat → List Entry → Option α}
    {members : List (String × Json)} {entries : List (Option Json)} {value : α}
    (distinct : Distinct members)
    (found : (names.map fun name => (members.lookup name).map sorted) = entries)
    (built : ∀ levels, (∀ json, some json ∈ entries → json.nesting ≤ levels) →
      build levels (entries.map Entry.ofOption) = some value) :
    Reads (record names build) (Json.object members).sorted value := by
  have lookup : (fun name => (sortMembers (sortedMembers members)).lookup name) =
      fun name => (members.lookup name).map sorted := by
    funext name
    rw [lookup_sortMembers distinct.sortedMembers, lookup_sortedMembers]
  rw [sorted]
  apply reads_record (inNameOrder_sortMembers _).distinct _ built
  rw [lookup]
  exact found

/-! ## Fields -/

section

variable {decoder : Decoder α} {json : Json} {value : α} {levels : Nat}

theorem Reads.required (reads : Reads decoder json value) (within : json.nesting ≤ levels) :
    required decoder levels (Entry.ofOption (some json)) = some value :=
  reads levels within

theorem Reads.withDefault (reads : Reads decoder json value) (within : json.nesting ≤ levels)
    (default : α) :
    withDefault default decoder levels (Entry.ofOption (some json)) = some value :=
  reads levels within

/-- A field is left out when it has its default. -/
theorem Reads.optional {default : α} (reads : Reads decoder json value) (isDefault : Bool)
    (omitted : isDefault = true → value = default)
    (within : isDefault = false → json.nesting ≤ levels) :
    Decoder.withDefault default decoder levels
      (Entry.ofOption (if isDefault then none else some json)) = some value := by
  cases isDefault with
  | true =>
      rw [omitted rfl]
      rfl
  | false => exact reads levels (within rfl)

end

/-! ## Free-form values -/

mutual
/-- A free-form value is read when its containers are not nested too deeply, with its members
sorted. -/
theorem free_toDocument : ∀ (levels : Nat) (json : Json),
    free levels (toDocument json) = if json.nesting ≤ levels then some json.sorted else none
  | _, .null | _, .bool _ | _, .number _ | _, .string _ => rfl
  | 0, .array items => rfl
  | 0, .object members => rfl
  | levels + 1, .array items => by
      rw [nesting, toDocument, free, freeItems_itemDocuments levels items, Document.depth, sorted]
      simp only [Nat.add_le_add_iff_right]
      split <;> rfl
  | levels + 1, .object members => by
      rw [nesting, toDocument, free, freeMembers_memberDocuments levels members, Document.depth,
        sorted]
      simp only [Nat.add_le_add_iff_right]
      split <;> rfl

theorem freeItems_itemDocuments : ∀ (levels : Nat) (items : List Json),
    freeItems levels (itemDocuments items) =
      if Document.itemsDepth (itemDocuments items) ≤ levels then some (sortedItems items)
      else none
  | _, [] => rfl
  | levels, head :: tail => by
      rw [itemDocuments, freeItems, free_toDocument levels head,
        freeItems_itemDocuments levels tail, Document.itemsDepth, sortedItems, nesting]
      simp only [Nat.max_le]
      by_cases headFits : (toDocument head).depth ≤ levels
      · by_cases tailFits : Document.itemsDepth (itemDocuments tail) ≤ levels
        · simp [headFits, tailFits]
        · simp [headFits, tailFits]
      · simp [headFits]

theorem freeMembers_memberDocuments : ∀ (levels : Nat) (members : List (String × Json)),
    freeMembers levels (memberDocuments members) =
      if Document.membersDepth (memberDocuments members) ≤ levels then
        some (sortedMembers members)
      else none
  | _, [] => rfl
  | levels, (name, value) :: tail => by
      rw [memberDocuments, freeMembers, free_toDocument levels value,
        freeMembers_memberDocuments levels tail, Document.membersDepth, sortedMembers, nesting]
      simp only [Nat.max_le]
      by_cases headFits : (toDocument value).depth ≤ levels
      · by_cases tailFits : Document.membersDepth (memberDocuments tail) ≤ levels
        · simp [headFits, tailFits]
        · simp [headFits, tailFits]
      · simp [headFits]
end

end Decoder

end EventSheet.Json
