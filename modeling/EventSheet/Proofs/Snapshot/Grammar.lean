import EventSheet.Snapshot
import Mathlib.Data.List.Forall2
namespace EventSheet

/-! # Well-formed snapshots

A snapshot describes a forest when the depths of its records nest, every nested
record lies under a kind that owns sub-events, and every record builds an event
of its kind. A reader that goes through the records in order refuses the first
one at which one of these fails. -/

/-! ## Creation -/

/-- The factory registered for the kind of a record accepts the payload and builds
an event of that very kind. -/
def Registry.Builds {β : Type} [EventKind β] (registry : Registry β) (record : EventRecord)
    (behavior : β) : Prop :=
  ∃ factory, registry.factory? record.kind = some factory ∧
    factory record.payload = .ok behavior ∧ EventKind.kind behavior = record.kind

theorem Registry.create_eq_ok_iff {β : Type} [EventKind β] {registry : Registry β}
    {record : EventRecord} {behavior : β} :
    registry.create record.kind record.payload = .ok behavior ↔
      registry.Builds record behavior := by
  rw [Builds, create]
  constructor
  · intro created
    split at created
    · cases created
    · next factory known =>
        split at created
        · cases created
        · next built accepted =>
            split at created
            · next same =>
                cases created
                exact ⟨factory, known, accepted, same⟩
            · cases created
  · intro builds
    rcases builds with ⟨factory, known, accepted, same⟩
    simp only [known, accepted, same, ↓reduceIte]

theorem Registry.Builds.unique {β : Type} [EventKind β] {registry : Registry β}
    {record : EventRecord} {first second : β} (builds : registry.Builds record first)
    (again : registry.Builds record second) : first = second := by
  rw [← create_eq_ok_iff] at builds again
  rw [builds] at again
  exact Except.ok.inj again

namespace EventRecord

/-! ## The tree the depths describe

What a record means depends on the records before it, which are given nearest
first. -/

/-- The nearest record before one at a depth. -/
def nearest? (depth : Nat) (earlier : List EventRecord) : Option EventRecord :=
  earlier.find? fun record => record.depth = depth

/-- The nearest earlier record that is one level up. -/
def parent? (earlier : List EventRecord) (record : EventRecord) : Option EventRecord :=
  earlier.find? fun candidate => candidate.depth + 1 = record.depth

/-- How deep the next record can be: one more than the record before it. -/
def openLevels : List EventRecord → Nat
  | [] => 0
  | last :: _ => last.depth + 1

/-- Every record is at most one level below the one before it. -/
def Nested : List EventRecord → Prop
  | [] => True
  | last :: earlier => last.depth ≤ openLevels earlier ∧ Nested earlier

theorem parent?_of_depth_zero {earlier : List EventRecord} {record : EventRecord}
    (top : record.depth = 0) : parent? earlier record = none := by
  rw [parent?, List.find?_eq_none]
  intro candidate _
  simp [top]

theorem parent?_of_depth_succ {earlier : List EventRecord} {record : EventRecord} {level : Nat}
    (nested : record.depth = level + 1) : parent? earlier record = nearest? level earlier := by
  rw [parent?, nearest?, nested]
  congr 1
  funext candidate
  simp

/-- Nested depths leave no gap, so there is a record at every open level. -/
theorem exists_nearest {earlier : List EventRecord} (nested : Nested earlier) {level : Nat}
    (below : level < openLevels earlier) : ∃ record, nearest? level earlier = some record := by
  induction earlier with
  | nil => exact absurd below (Nat.not_lt_zero level)
  | cons last earlier induction =>
      by_cases same : last.depth = level
      · exact ⟨last, List.find?_cons_of_pos (by simp [same])⟩
      · have inner : level < openLevels earlier := by
          have within := nested.1
          rw [openLevels] at below
          omega
        rcases induction nested.2 inner with ⟨record, found⟩
        refine ⟨record, ?_⟩
        rw [nearest?, List.find?_cons_of_neg (by simp [same])]
        exact found

theorem exists_parent {earlier : List EventRecord} {record : EventRecord}
    (nested : Nested earlier) (positive : 0 < record.depth)
    (within : record.depth ≤ openLevels earlier) :
    ∃ parent, parent? earlier record = some parent := by
  rcases Nat.exists_eq_succ_of_ne_zero (Nat.ne_of_gt positive) with ⟨level, isSucc⟩
  rw [parent?_of_depth_succ isSucc]
  exact exists_nearest nested (by omega)

end EventRecord

/-! ## Refused records -/

section

variable {β : Type} [EventKind β]

/-- The record cannot follow the earlier ones. The depth is looked at first, then
the parent, and only then the event of the record itself. -/
inductive Refuses (registry : Registry β) (earlier : List EventRecord) (record : EventRecord) :
    RestoreError → Prop
  | nestedTooDeeply (tooDeep : EventRecord.openLevels earlier < record.depth) :
      Refuses registry earlier record
        (.nestedTooDeeply earlier.length record.depth (EventRecord.openLevels earlier))
  | parentOwnsNone (within : record.depth ≤ EventRecord.openLevels earlier)
      (parent : EventRecord) (behavior : β)
      (found : EventRecord.parent? earlier record = some parent)
      (builds : registry.Builds parent behavior)
      (childless : EventKind.ownsSubEvents behavior = false) :
      Refuses registry earlier record (.parentOwnsNone earlier.length parent.kind)
  | creation (within : record.depth ≤ EventRecord.openLevels earlier)
      (owned : ∀ parent, EventRecord.parent? earlier record = some parent →
        ∃ behavior, registry.Builds parent behavior ∧ EventKind.ownsSubEvents behavior = true)
      (error : CreationError)
      (failed : registry.create record.kind record.payload = .error error) :
      Refuses registry earlier record (.creation earlier.length error)

theorem Refuses.unique {registry : Registry β} {earlier : List EventRecord}
    {record : EventRecord} {first second : RestoreError}
    (refused : Refuses registry earlier record first)
    (again : Refuses registry earlier record second) : first = second := by
  cases refused with
  | nestedTooDeeply tooDeep =>
      cases again with
      | nestedTooDeeply => rfl
      | parentOwnsNone within => omega
      | creation within => omega
  | parentOwnsNone within parent behavior found builds childless =>
      cases again with
      | nestedTooDeeply tooDeep => omega
      | parentOwnsNone _ other _ foundOther =>
          have same := found.symm.trans foundOther
          rw [Option.some.inj same]
      | creation _ owned =>
          rcases owned parent found with ⟨owner, buildsOwner, owns⟩
          rw [builds.unique buildsOwner, owns] at childless
          cases childless
  | creation within owned error failed =>
      cases again with
      | nestedTooDeeply tooDeep => omega
      | parentOwnsNone _ parent behavior found builds childless =>
          rcases owned parent found with ⟨owner, buildsOwner, owns⟩
          rw [builds.unique buildsOwner, owns] at childless
          cases childless
      | creation _ _ other failedOther =>
          have same := failed.symm.trans failedOther
          rw [Except.error.inj same]

/-- The record can follow the earlier ones. -/
structure Accepts (registry : Registry β) (earlier : List EventRecord)
    (record : EventRecord) : Prop where
  depth : record.depth ≤ EventRecord.openLevels earlier
  parent : ∀ parent, EventRecord.parent? earlier record = some parent →
    ∃ behavior, registry.Builds parent behavior ∧ EventKind.ownsSubEvents behavior = true
  created : ∃ behavior, registry.Builds record behavior

theorem Accepts.not_refuses {registry : Registry β} {earlier : List EventRecord}
    {record : EventRecord} (accepted : Accepts registry earlier record) (error : RestoreError) :
    ¬ Refuses registry earlier record error := by
  intro refused
  cases refused with
  | nestedTooDeeply tooDeep =>
      have within := accepted.depth
      omega
  | parentOwnsNone _ parent behavior found builds childless =>
      rcases accepted.parent parent found with ⟨owner, buildsOwner, owns⟩
      rw [builds.unique buildsOwner, owns] at childless
      cases childless
  | creation _ _ error failed =>
      rcases accepted.created with ⟨behavior, builds⟩
      rw [← Registry.create_eq_ok_iff, failed] at builds
      cases builds

/-- The records before a position, nearest first. -/
def EventRecord.before (events : List EventRecord) (position : Nat) : List EventRecord :=
  (events.take position).reverse

/-- The record at a position is refused. -/
def RefusedAt (registry : Registry β) (events : List EventRecord) (position : Nat)
    (error : RestoreError) : Prop :=
  ∃ record, events[position]? = some record ∧
    Refuses registry (EventRecord.before events position) record error

/-- The error of the first record that is refused. -/
def FirstRefusal (registry : Registry β) (events : List EventRecord) (error : RestoreError) :
    Prop :=
  ∃ position, RefusedAt registry events position error ∧
    ∀ earlier < position, ∀ other, ¬ RefusedAt registry events earlier other

/-- Every record before a position can follow the ones before it. -/
def AllAccepted (registry : Registry β) (events : List EventRecord) (count : Nat) : Prop :=
  ∀ position < count, ∀ record, events[position]? = some record →
    Accepts registry (EventRecord.before events position) record

theorem AllAccepted.not_refusedAt {registry : Registry β} {events : List EventRecord}
    {count : Nat} (accepted : AllAccepted registry events count) {position : Nat}
    (within : position < count) (error : RestoreError) :
    ¬ RefusedAt registry events position error := by
  intro refused
  rcases refused with ⟨record, found, refuses⟩
  exact (accepted position within record found).not_refuses error refuses

theorem AllAccepted.not_firstRefusal {registry : Registry β} {events : List EventRecord}
    (accepted : AllAccepted registry events events.length) (error : RestoreError) :
    ¬ FirstRefusal registry events error := by
  intro refusal
  rcases refusal with ⟨position, ⟨record, found, refuses⟩, _⟩
  have within := (List.getElem?_eq_some_iff.mp found).1
  exact accepted.not_refusedAt within error ⟨record, found, refuses⟩

theorem FirstRefusal.unique {registry : Registry β} {events : List EventRecord}
    {first second : RestoreError} (refused : FirstRefusal registry events first)
    (again : FirstRefusal registry events second) : first = second := by
  rcases refused with ⟨position, refusedAt, earliest⟩
  rcases again with ⟨other, againAt, againEarliest⟩
  have same : position = other := by
    apply Nat.le_antisymm
    · exact Nat.le_of_not_lt fun sooner => earliest other sooner second againAt
    · exact Nat.le_of_not_lt fun sooner => againEarliest position sooner first refusedAt
  subst same
  rcases refusedAt with ⟨record, found, refuses⟩
  rcases againAt with ⟨_, foundAgain, refusesAgain⟩
  rw [found] at foundAgain
  cases foundAgain
  exact refuses.unique refusesAgain

/-! ## Well-formed snapshots -/

theorem EventRecord.before_succ {events : List EventRecord} {position : Nat}
    {record : EventRecord} (found : events[position]? = some record) :
    before events (position + 1) = record :: before events position := by
  rw [before, before, List.take_add_one, found, Option.toList_some, List.reverse_append,
    List.reverse_singleton, List.singleton_append]

/-- The snapshot describes a forest. -/
structure Snapshot.WellFormed (registry : Registry β) (snapshot : Snapshot) : Prop where
  version : snapshot.version ≤ 1
  first : ∀ record, snapshot.events[0]? = some record → record.depth = 0
  later : ∀ position last record, snapshot.events[position]? = some last →
    snapshot.events[position + 1]? = some record → record.depth ≤ last.depth + 1
  parents : ∀ position record, snapshot.events[position]? = some record → 0 < record.depth →
    ∃ parent behavior,
      EventRecord.parent? (EventRecord.before snapshot.events position) record = some parent ∧
      registry.Builds parent behavior ∧ EventKind.ownsSubEvents behavior = true
  created : ∀ record ∈ snapshot.events, ∃ behavior, registry.Builds record behavior

theorem AllAccepted.nested {registry : Registry β} {events : List EventRecord}
    (accepted : AllAccepted registry events events.length) :
    ∀ position, position ≤ events.length →
      EventRecord.Nested (EventRecord.before events position) := by
  intro position
  induction position with
  | zero => exact fun _ => trivial
  | succ position induction =>
      intro within
      have found : events[position]? = some events[position] :=
        List.getElem?_eq_getElem within
      rw [EventRecord.before_succ found]
      exact ⟨(accepted position within _ found).depth, induction (Nat.le_of_lt within)⟩

/-- A snapshot is well formed when no record would be refused. -/
theorem Snapshot.wellFormed_iff {registry : Registry β} {snapshot : Snapshot} :
    snapshot.WellFormed registry ↔
      snapshot.version ≤ formatVersion ∧
        AllAccepted registry snapshot.events snapshot.events.length := by
  constructor
  · intro wellFormed
    refine ⟨wellFormed.version, ?_⟩
    intro position within record found
    constructor
    · cases position with
      | zero => exact Nat.le_of_eq (wellFormed.first record found)
      | succ position =>
          have foundLast : snapshot.events[position]? = some snapshot.events[position] :=
            List.getElem?_eq_getElem (Nat.lt_of_succ_lt within)
          rw [EventRecord.before_succ foundLast]
          exact wellFormed.later position _ record foundLast found
    · intro parent isParent
      have positive : 0 < record.depth := by
        apply Nat.pos_of_ne_zero
        intro top
        rw [EventRecord.parent?_of_depth_zero top] at isParent
        cases isParent
      rcases wellFormed.parents position record found positive with
        ⟨other, behavior, isOther, builds, owns⟩
      rw [isParent] at isOther
      cases isOther
      exact ⟨behavior, builds, owns⟩
    · exact wellFormed.created record (List.mem_of_getElem? found)
  · intro conditions
    rcases conditions with ⟨version, accepted⟩
    have acceptedAt : ∀ position record, snapshot.events[position]? = some record →
        Accepts registry (EventRecord.before snapshot.events position) record := by
      intro position record found
      exact accepted position (List.getElem?_eq_some_iff.mp found).1 record found
    constructor
    · exact version
    · intro record found
      exact Nat.le_zero.mp (acceptedAt 0 record found).depth
    · intro position last record foundLast found
      have within := (acceptedAt (position + 1) record found).depth
      rw [EventRecord.before_succ foundLast] at within
      exact within
    · intro position record found positive
      have acceptedHere := acceptedAt position record found
      have inside := (List.getElem?_eq_some_iff.mp found).1
      rcases EventRecord.exists_parent (accepted.nested position (Nat.le_of_lt inside))
        positive acceptedHere.depth with ⟨parent, isParent⟩
      rcases acceptedHere.parent parent isParent with ⟨behavior, builds, owns⟩
      exact ⟨parent, behavior, isParent, builds, owns⟩
    · intro record member
      rcases List.getElem?_of_mem member with ⟨position, found⟩
      exact (acceptedAt position record found).created

end

end EventSheet
