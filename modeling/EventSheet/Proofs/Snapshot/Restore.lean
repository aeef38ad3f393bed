import EventSheet.Proofs.Snapshot.Grammar
namespace EventSheet

/-! # Restoring a snapshot

The nodes of a forest that is being rebuilt, read off its roots and its open
nodes, are the records taken in so far. Closing a node moves it without changing
what is read off, and the open nodes are the nearest records of their levels. -/

/-! ## Reading a forest off in pre-order -/

section

variable {β : Type}

/-- Every node of a tree in pre-order, as its event and its depth. -/
def Node.events (depth : Nat) (node : Node β) : List (Event β × Nat) :=
  (node.walk depth).map fun visit => (visit.1.event, visit.2)

def Forest.events (depth : Nat) (forest : Forest β) : List (Event β × Nat) :=
  (Forest.walkFrom depth forest).map fun visit => (visit.1.event, visit.2)

theorem Node.events_eq (depth : Nat) (node : Node β) :
    node.events depth = (node.event, depth) :: Forest.events (depth + 1) node.subEvents := by
  cases node
  rw [events, walk, List.map_cons, Forest.events]

theorem Forest.events_cons (depth : Nat) (head : Node β) (tail : Forest β) :
    Forest.events depth (head :: tail) = head.events depth ++ Forest.events depth tail := by
  rw [events, walkFrom, List.map_append, Node.events, events]

theorem Forest.events_append (depth : Nat) (left right : Forest β) :
    Forest.events depth (left ++ right) =
      Forest.events depth left ++ Forest.events depth right := by
  induction left with
  | nil => rfl
  | cons head tail induction =>
      rw [List.cons_append, events_cons, induction, events_cons, List.append_assoc]

theorem Forest.events_singleton (depth : Nat) (node : Node β) :
    Forest.events depth [node] = node.events depth := by
  rw [events_cons]
  exact List.append_nil _

namespace Rebuilding

/-- What the open nodes hold, outermost first. -/
def openEvents : List (Node β) → List (Event β × Nat)
  | [] => []
  | node :: outer => openEvents outer ++ node.events outer.length

/-- Every node there is so far in pre-order. -/
def events (rebuilding : Rebuilding β) : List (Event β × Nat) :=
  Forest.events 0 rebuilding.roots ++ openEvents rebuilding.openNodes

/-! ## Closing nodes -/

theorem events_closeInnermost (rebuilding : Rebuilding β) :
    rebuilding.closeInnermost.events = rebuilding.events := by
  rcases rebuilding with ⟨roots, openNodes⟩
  cases openNodes with
  | nil => rfl
  | cons node outer =>
      cases outer with
      | nil =>
          simp only [closeInnermost, events, openEvents, List.append_nil, List.nil_append,
            List.length_nil]
          rw [Forest.events_append, Forest.events_singleton]
      | cons parent outer =>
          -- the last sub-event of the parent is read off behind the others
          simp only [closeInnermost, events, openEvents, List.length_cons]
          rw [Node.events_eq outer.length, Forest.events_append, Forest.events_singleton,
            Node.events_eq outer.length parent]
          simp only [List.append_assoc, List.cons_append]

theorem length_closeInnermost (rebuilding : Rebuilding β) :
    rebuilding.closeInnermost.openNodes.length = rebuilding.openNodes.length - 1 := by
  rcases rebuilding with ⟨roots, openNodes⟩
  cases openNodes with
  | nil => rfl
  | cons node outer => cases outer <;> rfl

/-- What closing one node preserves, closing any number preserves. -/
theorem closeTo_preserves (Holds : Rebuilding β → Prop)
    (step : ∀ rebuilding, Holds rebuilding → Holds rebuilding.closeInnermost) (depth : Nat)
    {rebuilding : Rebuilding β} (holds : Holds rebuilding) :
    Holds (rebuilding.closeTo depth) := by
  rw [closeTo]
  induction rebuilding.openNodes.length - depth with
  | zero => exact holds
  | succ count induction => exact step _ induction

theorem events_closeTo (depth : Nat) (rebuilding : Rebuilding β) :
    (rebuilding.closeTo depth).events = rebuilding.events := by
  apply closeTo_preserves fun closed => closed.events = rebuilding.events
  · intro closed same
    rw [events_closeInnermost, same]
  · rfl

theorem length_closeTo (depth : Nat) (rebuilding : Rebuilding β) :
    (rebuilding.closeTo depth).openNodes.length = min depth rebuilding.openNodes.length := by
  have closed : ∀ count, (Nat.repeat closeInnermost count rebuilding).openNodes.length =
      rebuilding.openNodes.length - count := by
    intro count
    induction count with
    | zero => rfl
    | succ count induction =>
        rw [Nat.repeat, length_closeInnermost, induction, Nat.sub_add_eq]
  rw [closeTo, closed]
  omega

end Rebuilding

end

/-! ## What the open nodes stand for -/

section

variable {β : Type} [EventKind β]

/-- Each open node is built from the nearest record of its level. -/
inductive Tracks (registry : Registry β) (earlier : List EventRecord) : List (Node β) → Prop
  | nil : Tracks registry earlier []
  | cons (node : Node β) (outer : List (Node β)) (record : EventRecord)
      (nearest : EventRecord.nearest? outer.length earlier = some record)
      (builds : registry.Builds record node.behavior) (rest : Tracks registry earlier outer) :
      Tracks registry earlier (node :: outer)

theorem Tracks.closeInnermost {registry : Registry β} {earlier : List EventRecord}
    {rebuilding : Rebuilding β} (tracks : Tracks registry earlier rebuilding.openNodes) :
    Tracks registry earlier rebuilding.closeInnermost.openNodes := by
  rcases rebuilding with ⟨roots, openNodes⟩
  cases tracks with
  | nil => exact .nil
  | cons node outer record nearest builds rest =>
      cases rest with
      | nil => exact .nil
      | cons parent outer other nearestOther buildsOther rest =>
          exact .cons _ outer other nearestOther buildsOther rest

/-- A record that is not above the open nodes leaves them the nearest of their
levels. -/
theorem Tracks.later {registry : Registry β} {earlier : List EventRecord}
    {openNodes : List (Node β)} (tracks : Tracks registry earlier openNodes)
    {record : EventRecord} (below : openNodes.length ≤ record.depth) :
    Tracks registry (record :: earlier) openNodes := by
  induction tracks with
  | nil => exact .nil
  | cons node outer other nearest builds rest induction =>
      rw [List.length_cons] at below
      apply Tracks.cons node outer other _ builds (induction (Nat.le_of_succ_le below))
      rw [EventRecord.nearest?, List.find?_cons_of_neg]
      · exact nearest
      · simp only [decide_eq_true_eq]
        omega

/-- The innermost open node stands for the parent of the next record. -/
theorem Tracks.head?_parent {registry : Registry β} {earlier : List EventRecord}
    {openNodes : List (Node β)} (tracks : Tracks registry earlier openNodes)
    {record : EventRecord} (levels : openNodes.length = record.depth) :
    (openNodes.head? = none ∧ EventRecord.parent? earlier record = none) ∨
      ∃ node parent, openNodes.head? = some node ∧
        EventRecord.parent? earlier record = some parent ∧
        registry.Builds parent node.behavior := by
  cases tracks with
  | nil => exact .inl ⟨rfl, EventRecord.parent?_of_depth_zero levels.symm⟩
  | cons node outer parent nearest builds rest =>
      right
      refine ⟨node, parent, rfl, ?_, builds⟩
      rw [EventRecord.parent?_of_depth_succ levels.symm]
      exact nearest

/-- What is learnt from the innermost open node not being one that owns no sub-events. -/
theorem Tracks.check_parent {registry : Registry β} {earlier : List EventRecord}
    {openNodes : List (Node β)} (tracks : Tracks registry earlier openNodes)
    {record : EventRecord} (levels : openNodes.length = record.depth) :
    (openNodes.head?.filter (fun parent => !parent.ownsSubEvents) = none ∧
      ∀ parent, EventRecord.parent? earlier record = some parent →
        ∃ behavior, registry.Builds parent behavior ∧ EventKind.ownsSubEvents behavior = true) ∨
    ∃ node parent, openNodes.head?.filter (fun parent => !parent.ownsSubEvents) = some node ∧
      EventRecord.parent? earlier record = some parent ∧
      registry.Builds parent node.behavior ∧ EventKind.ownsSubEvents node.behavior = false := by
  rcases tracks.head?_parent levels with
    ⟨noNode, noParent⟩ | ⟨node, parent, isHead, isParent, builds⟩
  · left
    rw [noNode, noParent]
    exact ⟨rfl, fun parent isParent => nomatch isParent⟩
  · rw [isHead, isParent, Option.filter_some]
    cases owns : node.ownsSubEvents with
    | true =>
        left
        refine ⟨rfl, ?_⟩
        intro other same
        cases same
        exact ⟨node.behavior, builds, owns⟩
    | false =>
        right
        exact ⟨node, parent, rfl, rfl, builds, owns⟩

/-- An event carries what its record says, at the depth of the record. -/
structure Restored (registry : Registry β) (record : EventRecord) (event : Event β)
    (depth : Nat) : Prop where
  kind : EventKind.kind event.behavior = record.kind
  disabled : event.disabled = record.disabled
  folded : event.folded = record.folded
  depth : depth = record.depth
  builds : registry.Builds record event.behavior

/-- The nodes made so far are the records taken in, nearest first. -/
structure Rebuilding.Represents (registry : Registry β) (earlier : List EventRecord)
    (rebuilding : Rebuilding β) : Prop where
  levels : rebuilding.openNodes.length = EventRecord.openLevels earlier
  tracks : Tracks registry earlier rebuilding.openNodes
  restored : List.Forall₂ (fun record visit => Restored registry record visit.1 visit.2)
    earlier.reverse rebuilding.events

namespace Rebuilding

/-! ## Taking in a record -/

theorem represents_empty (registry : Registry β) : Represents registry [] {} where
  levels := rfl
  tracks := .nil
  restored := .nil

/-- Close the nodes that a record is not below: the parent of the record is then the
innermost open node. -/
theorem Represents.closeTo {registry : Registry β} {earlier : List EventRecord}
    {rebuilding : Rebuilding β} (represents : Represents registry earlier rebuilding)
    (depth : Nat) : Tracks registry earlier (rebuilding.closeTo depth).openNodes := by
  apply closeTo_preserves fun closed => Tracks registry earlier closed.openNodes
  · intro closed tracks
    exact tracks.closeInnermost
  · exact represents.tracks

theorem Represents.length_closeTo {registry : Registry β} {earlier : List EventRecord}
    {rebuilding : Rebuilding β} (represents : Represents registry earlier rebuilding)
    {depth : Nat} (within : depth ≤ EventRecord.openLevels earlier) :
    (rebuilding.closeTo depth).openNodes.length = depth := by
  rw [Rebuilding.length_closeTo, represents.levels, Nat.min_eq_left within]

/-- The event made for a record. -/
def fresh (record : EventRecord) (behavior : β) (id : NodeId) : Node β :=
  (({ event := { id, behavior } } : Node β).setDisabled record.disabled).setFolded record.folded

theorem restored_fresh {registry : Registry β} {record : EventRecord} {behavior : β}
    (builds : registry.Builds record behavior) (id : NodeId) :
    Restored registry record (fresh record behavior id).event record.depth where
  kind := by
    rcases builds with ⟨factory, known, accepted, same⟩
    exact same
  disabled := rfl
  folded := rfl
  depth := rfl
  builds := builds

theorem Represents.push {registry : Registry β} {earlier : List EventRecord}
    {rebuilding : Rebuilding β} (represents : Represents registry earlier rebuilding)
    {record : EventRecord} (within : record.depth ≤ EventRecord.openLevels earlier)
    {behavior : β} (builds : registry.Builds record behavior) (id : NodeId) :
    Represents registry (record :: earlier)
      { rebuilding.closeTo record.depth with
        openNodes := fresh record behavior id :: (rebuilding.closeTo record.depth).openNodes } where
  levels := by
    rw [List.length_cons, represents.length_closeTo within, EventRecord.openLevels]
  tracks := by
    have levels := represents.length_closeTo within
    apply Tracks.cons _ _ record _ builds
    · exact (represents.closeTo record.depth).later (Nat.le_of_eq levels)
    · rw [levels]
      exact List.find?_cons_of_pos (by simp)
  restored := by
    have levels := represents.length_closeTo within
    have before := events_closeTo record.depth rebuilding
    rw [events] at before
    rw [events, openEvents, ← List.append_assoc, before, List.reverse_cons, levels,
      Node.events_eq]
    exact List.rel_append represents.restored (.cons (restored_fresh builds id) .nil)

/-- A record is taken in when it can follow the earlier ones; else it is refused with
the error of what it lacks. -/
theorem Represents.add {registry : Registry β} {earlier : List EventRecord}
    {rebuilding : Rebuilding β} (represents : Represents registry earlier rebuilding)
    (record : EventRecord) (population : Population) :
    (∃ next, (rebuilding.add registry earlier.length record population).1 = .ok next ∧
      Accepts registry earlier record ∧ Represents registry (record :: earlier) next) ∨
    ∃ error, (rebuilding.add registry earlier.length record population).1 = .error error ∧
      Refuses registry earlier record error := by
  by_cases tooDeep : EventRecord.openLevels earlier < record.depth
  · right
    refine ⟨_, ?_, .nestedTooDeeply tooDeep⟩
    simp only [Rebuilding.add, represents.levels, tooDeep, ↓reduceIte]
    rfl
  · have within := Nat.le_of_not_lt tooDeep
    simp only [Rebuilding.add, represents.levels, tooDeep, ↓reduceIte]
    rcases (represents.closeTo record.depth).check_parent (represents.length_closeTo within) with
      ⟨passes, owned⟩ | ⟨node, parent, refusing, isParent, builds, childless⟩
    · rw [passes]
      cases creates : registry.create record.kind record.payload with
      | ok behavior =>
          left
          rw [Registry.create_eq_ok_iff] at creates
          exact ⟨_, rfl, ⟨within, owned, behavior, creates⟩,
            represents.push within creates population.nextId⟩
      | error error =>
          right
          exact ⟨_, rfl, .creation within owned error creates⟩
    · right
      rw [refusing]
      refine ⟨_, rfl, ?_⟩
      have sameKind : node.kind = parent.kind := by
        rcases builds with ⟨factory, known, accepted, same⟩
        exact same
      rw [sameKind]
      exact .parentOwnsNone within parent node.behavior isParent builds childless

/-! ## Taking in every record -/

theorem Represents.finish {registry : Registry β} {earlier : List EventRecord}
    {rebuilding : Rebuilding β} (represents : Represents registry earlier rebuilding) :
    List.Forall₂ (fun record visit => Restored registry record visit.1.event visit.2)
      earlier.reverse (Forest.walk (rebuilding.closeTo 0).roots) := by
  have closed : (rebuilding.closeTo 0).openNodes = [] := by
    apply List.eq_nil_of_length_eq_zero
    exact represents.length_closeTo (Nat.zero_le _)
  have restored := represents.restored
  rw [← events_closeTo 0 rebuilding, events, closed, openEvents, List.append_nil,
    Forest.events, List.forall₂_map_right_iff] at restored
  exact restored

theorem addAll_of_ok {registry : Registry β} {position : Nat} {record : EventRecord}
    {rebuilding next : Rebuilding β} {population : Population}
    (taken : (rebuilding.add registry position record population).1 = .ok next)
    (rest : List EventRecord) :
    addAll registry position (record :: rest) rebuilding population =
      addAll registry (position + 1) rest next
        (rebuilding.add registry position record population).2 := by
  rcases outcome : rebuilding.add registry position record population with ⟨result, after⟩
  rw [outcome] at taken
  subst taken
  simp only [addAll, bind, StateT.bind, outcome]

theorem addAll_of_error {registry : Registry β} {position : Nat} {record : EventRecord}
    {rebuilding : Rebuilding β} {population : Population} {error : RestoreError}
    (refused : (rebuilding.add registry position record population).1 = .error error)
    (rest : List EventRecord) :
    (addAll registry position (record :: rest) rebuilding population).1 = .error error := by
  rcases outcome : rebuilding.add registry position record population with ⟨result, after⟩
  rw [outcome] at refused
  subst refused
  simp only [addAll, bind, StateT.bind, outcome]
  rfl

/-- Taking in the records behind those of `before` ends with the forest when all of them
can follow, and with the error of the first that cannot otherwise. -/
theorem addAll_cases {registry : Registry β} {events : List EventRecord} :
    ∀ (rest before : List EventRecord) (rebuilding : Rebuilding β) (population : Population),
      events = before ++ rest → AllAccepted registry events before.length →
      Represents registry before.reverse rebuilding →
      (∃ forest, (addAll registry before.length rest rebuilding population).1 = .ok forest ∧
        AllAccepted registry events events.length ∧
        List.Forall₂ (fun record visit => Restored registry record visit.1.event visit.2)
          events (Forest.walk forest)) ∨
      ∃ error, (addAll registry before.length rest rebuilding population).1 = .error error ∧
        FirstRefusal registry events error := by
  intro rest
  -- the records behind; what was taken in before them is what the state represents
  induction rest with
  | nil =>
      intro before rebuilding population split accepted represents
      rw [List.append_nil] at split
      subst split
      left
      refine ⟨_, rfl, accepted, ?_⟩
      have restored := represents.finish
      rw [List.reverse_reverse] at restored
      exact restored
  | cons record rest induction =>
      intro before rebuilding population split accepted represents
      have found : events[before.length]? = some record := by
        rw [split, List.getElem?_append_right (Nat.le_refl _), Nat.sub_self]
        rfl
      have earlier : EventRecord.before events before.length = before.reverse := by
        rw [EventRecord.before, split, List.take_left]
      have taken := represents.add record population
      rw [List.length_reverse] at taken
      rcases taken with ⟨next, isNext, accepts, nextRepresents⟩ | ⟨error, isError, refuses⟩
      · rw [addAll_of_ok isNext]
        have length : (before ++ [record]).length = before.length + 1 := by
          rw [List.length_append, List.length_singleton]
        rw [← length]
        apply induction
        · rw [split, List.append_assoc, List.singleton_append]
        · intro position within other foundOther
          rw [length] at within
          rcases Nat.lt_succ_iff_lt_or_eq.mp within with inside | same
          · exact accepted position inside other foundOther
          · rw [same, found] at foundOther
            cases foundOther
            rw [same, earlier]
            exact accepts
        · rw [List.reverse_append, List.reverse_singleton, List.singleton_append]
          exact nextRepresents
      · right
        refine ⟨error, addAll_of_error isError rest, before.length, ?_, ?_⟩
        · rw [RefusedAt, earlier]
          exact ⟨record, found, refuses⟩
        · intro position inside other
          exact accepted.not_refusedAt inside other

end Rebuilding

/-! ## Restoring -/

/-- How restoring a snapshot can end. -/
inductive Snapshot.Ends (registry : Registry β) (snapshot : Snapshot) :
    Except RestoreError (Forest β) → Prop
  | unsupported (newer : 1 < snapshot.version) :
      Ends registry snapshot (.error (.unsupportedVersion snapshot.version))
  | restored (forest : Forest β) (wellFormed : snapshot.WellFormed registry)
      (restored : List.Forall₂ (fun record visit => Restored registry record visit.1.event visit.2)
        snapshot.events (Forest.walk forest)) :
      Ends registry snapshot (.ok forest)
  | refused (error : RestoreError) (supported : snapshot.version ≤ 1)
      (first : FirstRefusal registry snapshot.events error) :
      Ends registry snapshot (.error error)

theorem Snapshot.ends_restore (registry : Registry β) (snapshot : Snapshot)
    (population : Population) :
    snapshot.Ends registry (snapshot.restore registry population).1 := by
  rw [restore]
  by_cases newer : formatVersion < snapshot.version
  · rw [if_pos newer]
    exact .unsupported newer
  · have supported := Nat.le_of_not_lt newer
    rw [if_neg newer]
    rcases Rebuilding.addAll_cases snapshot.events [] {} population rfl
        (fun _ outside => absurd outside (Nat.not_lt_zero _))
        (Rebuilding.represents_empty registry) with
      ⟨forest, isForest, accepted, restored⟩ | ⟨error, isError, first⟩
    · rw [List.length_nil] at isForest
      rw [isForest]
      exact .restored forest (wellFormed_iff.mpr ⟨supported, accepted⟩) restored
    · rw [List.length_nil] at isError
      rw [isError]
      exact .refused error supported first

theorem Snapshot.WellFormed.not_firstRefusal {registry : Registry β} {snapshot : Snapshot}
    (wellFormed : snapshot.WellFormed registry) (error : RestoreError) :
    ¬ FirstRefusal registry snapshot.events error :=
  (wellFormed_iff.mp wellFormed).2.not_firstRefusal error

/-- Exactly the well-formed snapshots are restored, to a forest with one node for each
record in pre-order; any other is refused with the version it has or with the error of the
first record that cannot follow the ones before it. -/
theorem Snapshot.restore_iff_wellFormed (registry : Registry β) (snapshot : Snapshot)
    (population : Population) :
    ((∃ forest, (snapshot.restore registry population).1 = .ok forest) ↔
      snapshot.WellFormed registry) ∧
    (∀ forest, (snapshot.restore registry population).1 = .ok forest →
      List.Forall₂ (fun record visit => Restored registry record visit.1.event visit.2)
        snapshot.events (Forest.walk forest)) ∧
    ∀ error, (snapshot.restore registry population).1 = .error error ↔
      (1 < snapshot.version ∧ error = .unsupportedVersion snapshot.version) ∨
      (snapshot.version ≤ 1 ∧ FirstRefusal registry snapshot.events error) := by
  have ends := snapshot.ends_restore registry population
  generalize (snapshot.restore registry population).1 = result at ends
  cases ends with
  | unsupported newer =>
      refine ⟨⟨?_, ?_⟩, ?_, ?_⟩
      · intro restored
        rcases restored with ⟨forest, impossible⟩
        cases impossible
      · intro wellFormed
        exact absurd wellFormed.version (Nat.not_le_of_lt newer)
      · intro forest impossible
        cases impossible
      · intro error
        constructor
        · intro refused
          cases refused
          exact .inl ⟨newer, rfl⟩
        · intro reason
          rcases reason with ⟨_, isVersion⟩ | ⟨supported, _⟩
          · rw [isVersion]
          · exact absurd supported (Nat.not_le_of_lt newer)
  | restored forest wellFormed restored =>
      refine ⟨⟨fun _ => wellFormed, fun _ => ⟨forest, rfl⟩⟩, ?_, ?_⟩
      · intro other same
        cases same
        exact restored
      · intro error
        constructor
        · intro impossible
          cases impossible
        · intro reason
          rcases reason with ⟨newer, _⟩ | ⟨_, first⟩
          · exact absurd wellFormed.version (Nat.not_le_of_lt newer)
          · exact absurd first (wellFormed.not_firstRefusal error)
  | refused error supported first =>
      refine ⟨⟨?_, ?_⟩, ?_, ?_⟩
      · intro restored
        rcases restored with ⟨forest, impossible⟩
        cases impossible
      · intro wellFormed
        exact absurd first (wellFormed.not_firstRefusal error)
      · intro forest impossible
        cases impossible
      · intro other
        constructor
        · intro same
          cases same
          exact .inr ⟨supported, first⟩
        · intro reason
          rcases reason with ⟨newer, _⟩ | ⟨_, again⟩
          · exact absurd supported (Nat.not_le_of_lt newer)
          · rw [first.unique again]

end

end EventSheet
