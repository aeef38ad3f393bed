import EventSheet.Behavior
import EventSheet.Kind.Builtin
namespace EventSheet

/-! # What structural equality decides

Pairs of nodes are compared in an order that follows from the list of pending pairs, and pairing
cuts the longer of two lists of sub-events. Still two trees are equal exactly when they have the
same places and the events at each place agree. Of ids only the samples matter that they stand
for. -/

variable {β : Type}

/-! ## Trees of the same shape -/

mutual
/-- The trees have the same shape, and the events in the same positions are related. -/
def Node.Matches (related : Event β → Event β → Prop) : Node β → Node β → Prop
  | ⟨left, leftEvents⟩, ⟨right, rightEvents⟩ =>
      related left right ∧ Forest.Matches related leftEvents rightEvents

def Forest.Matches (related : Event β → Event β → Prop) : List (Node β) → List (Node β) → Prop
  | [], [] => True
  | left :: lefts, right :: rights =>
      left.Matches related right ∧ Forest.Matches related lefts rights
  | _, _ => False
end

section

variable {related : Event β → Event β → Prop}

mutual
theorem Node.matches_iff_places : ∀ left right : Node β, left.Matches related right ↔
    ∀ place, Option.Rel (fun found other => related found.event other.event)
      (left.atPlace? place) (right.atPlace? place)
  | ⟨left, leftEvents⟩, ⟨right, rightEvents⟩ => by
      rw [Node.Matches, Forest.matches_iff_places leftEvents rightEvents]
      constructor
      · rintro ⟨top, below⟩ place
        cases place with
        | nil => exact .some top
        | cons position rest => exact below (position :: rest)
      · intro places
        constructor
        · cases places [] with
          | some top => exact top
        · intro place
          cases place with
          | nil => exact .none
          | cons position rest => exact places (position :: rest)

/-- Forests match when they have the same places and the events at each of them are related. -/
theorem Forest.matches_iff_places : ∀ left right : List (Node β),
    Forest.Matches related left right ↔
      ∀ place, Option.Rel (fun found other => related found.event other.event)
        (Forest.atPlace? place left) (Forest.atPlace? place right)
  | [], [] => by
      refine iff_of_true trivial ?_
      rintro (_ | ⟨position, rest⟩) <;> exact .none
  | [], right :: _ => iff_of_false id fun places => nomatch places [0]
  | left :: _, [] => iff_of_false id fun places => nomatch places [0]
  | left :: lefts, right :: rights => by
      rw [Forest.Matches, left.matches_iff_places right, Forest.matches_iff_places lefts rights]
      constructor
      · rintro ⟨first, others⟩ place
        rcases place with _ | ⟨_ | position, rest⟩
        · exact .none
        · exact first rest
        · exact others (position :: rest)
      · intro places
        refine ⟨fun rest => places (0 :: rest), fun place => ?_⟩
        rcases place with _ | ⟨position, rest⟩
        · exact .none
        · exact places ((position + 1) :: rest)
end

/-- Lists of nodes match when they are of one length and match pair by pair. -/
theorem Forest.matches_iff_zip : ∀ left right : List (Node β), Forest.Matches related left right ↔
    left.length = right.length ∧ ∀ pair ∈ left.zip right, pair.1.Matches related pair.2
  | [], [] => by simp [Forest.Matches]
  | [], _ :: _ => by simp [Forest.Matches]
  | _ :: _, [] => by simp [Forest.Matches]
  | left :: lefts, right :: rights => by
      rw [Forest.Matches, Forest.matches_iff_zip lefts rights, List.zip_cons_cons,
        List.forall_mem_cons, List.length_cons, List.length_cons, Nat.add_right_cancel_iff]
      exact and_left_comm

end

/-! Relations between events go over to the trees they are in. -/

section

variable {first second both : Event β → Event β → Prop}

mutual
theorem Node.Matches.flip
    (turned : ∀ {left right : Event β}, first left right → second right left) :
    ∀ {left right : Node β}, left.Matches first right → right.Matches second left
  | ⟨_, _⟩, ⟨_, _⟩, ⟨top, below⟩ => ⟨turned top, Forest.Matches.flip turned below⟩

theorem Forest.Matches.flip
    (turned : ∀ {left right : Event β}, first left right → second right left) :
    ∀ {left right : List (Node β)}, Forest.Matches first left right →
      Forest.Matches second right left
  | [], [], _ => trivial
  | _ :: _, _ :: _, ⟨head, others⟩ =>
      ⟨Node.Matches.flip turned head, Forest.Matches.flip turned others⟩
end

mutual
theorem Node.Matches.compose
    (joined : ∀ {left middle right : Event β},
      first left middle → second middle right → both left right) :
    ∀ {left middle right : Node β}, left.Matches first middle → middle.Matches second right →
      left.Matches both right
  | ⟨_, _⟩, ⟨_, _⟩, ⟨_, _⟩, ⟨top, below⟩, ⟨otherTop, otherBelow⟩ =>
      ⟨joined top otherTop, Forest.Matches.compose joined below otherBelow⟩

theorem Forest.Matches.compose
    (joined : ∀ {left middle right : Event β},
      first left middle → second middle right → both left right) :
    ∀ {left middle right : List (Node β)}, Forest.Matches first left middle →
      Forest.Matches second middle right → Forest.Matches both left right
  | [], [], [], _, _ => trivial
  | _ :: _, _ :: _, _ :: _, ⟨head, others⟩, ⟨otherHead, rest⟩ =>
      ⟨Node.Matches.compose joined head otherHead, Forest.Matches.compose joined others rest⟩
end

end

/-! ## Pending pairs -/

section

variable [EventKind β] {population : Population}

/-- The events are the same in all that is persisted of them, and the shares of their samples
compare as equal floats. -/
structure Event.Agree (population : Population) (left right : Event β) : Prop where
  kind : EventKind.kind left.behavior = EventKind.kind right.behavior
  disabled : left.disabled = right.disabled
  folded : left.folded = right.folded
  sample : (population.sample left.id).floatEqual (population.sample right.id) = true
  conditionLists : EventKind.conditionLists left.behavior = EventKind.conditionLists right.behavior
  actionLists : EventKind.actionLists left.behavior = EventKind.actionLists right.behavior
  payload : EventKind.payload left.behavior = EventKind.payload right.behavior

theorem Event.agrees_iff (left right : Event β) :
    left.agrees population right = true ↔ Event.Agree population left right := by
  simp only [Event.agrees, Bool.and_eq_true, decide_eq_true_eq]
  constructor
  · rintro ⟨⟨⟨⟨⟨⟨kind, disabled⟩, folded⟩, sample⟩, conditionLists⟩, actionLists⟩, payload⟩
    exact ⟨kind, disabled, folded, sample, conditionLists, actionLists, payload⟩
  · rintro ⟨kind, disabled, folded, sample, conditionLists, actionLists, payload⟩
    exact ⟨⟨⟨⟨⟨⟨kind, disabled⟩, folded⟩, sample⟩, conditionLists⟩, actionLists⟩, payload⟩

/-- Whatever order they are compared in, all pairs that are pending have to match. -/
theorem Node.pairsEqual_iff (pending : List (Node β × Node β)) :
    Node.pairsEqual population pending = true ↔
      ∀ pair ∈ pending, pair.1.Matches (Event.Agree population) pair.2 := by
  induction pending using Node.pairsEqual.induct with
  | case1 => simp [Node.pairsEqual]
  | case2 left right pending induction =>
      rcases left with ⟨left, leftEvents⟩
      rcases right with ⟨right, rightEvents⟩
      rw [Node.pairsEqual, Bool.and_eq_true, Bool.and_eq_true, decide_eq_true_eq, induction,
        Event.agrees_iff, List.forall_mem_cons, List.forall_mem_append, Node.Matches,
        Forest.matches_iff_zip, and_assoc, and_assoc, and_assoc]
      simp only [List.mem_reverse]

theorem Node.structurallyEqual_iff (left right : Node β) :
    left.structurallyEqual population right = true ↔
      left.Matches (Event.Agree population) right := by
  rw [Node.structurallyEqual, Node.pairsEqual_iff, List.forall_mem_singleton]

/-! ## Ids and what is remembered -/

/-- The same event under another id that stands for the same sample, each in a population of its
own. What the events remember may differ. -/
structure Event.Renamed (before after : Population) (event other : Event β) : Prop where
  behavior : other.behavior = event.behavior
  disabled : other.disabled = event.disabled
  folded : other.folded = event.folded
  sample : after.sample other.id = before.sample event.id

variable {before after : Population}

omit [EventKind β] in
theorem Event.Renamed.symm {event other : Event β} (renamed : Renamed before after event other) :
    Renamed after before other event :=
  ⟨renamed.behavior.symm, renamed.disabled.symm, renamed.folded.symm, renamed.sample.symm⟩

theorem Event.Agree.of_renamed {left right otherLeft otherRight : Event β}
    (leftRenamed : Event.Renamed before after left otherLeft)
    (rightRenamed : Event.Renamed before after right otherRight)
    (agree : Event.Agree before left right) : Event.Agree after otherLeft otherRight := by
  rw [← agrees_iff] at agree ⊢
  rw [← agree, agrees, agrees, leftRenamed.behavior, leftRenamed.disabled, leftRenamed.folded,
    leftRenamed.sample, rightRenamed.behavior, rightRenamed.disabled, rightRenamed.folded,
    rightRenamed.sample]

theorem Node.Matches.of_renamed {left right otherLeft otherRight : Node β}
    (leftRenamed : left.Matches (Event.Renamed before after) otherLeft)
    (rightRenamed : right.Matches (Event.Renamed before after) otherRight)
    (agree : left.Matches (Event.Agree before) right) :
    otherLeft.Matches (Event.Agree after) otherRight := by
  have turned : otherLeft.Matches (Event.Renamed after before) left :=
    leftRenamed.flip Event.Renamed.symm
  have halfway : otherLeft.Matches
      (fun other right => ∃ left, Event.Renamed before after left other ∧
        Event.Agree before left right) right :=
    turned.compose (fun renamed agree => ⟨_, renamed.symm, agree⟩) agree
  apply halfway.compose _ rightRenamed
  rintro _ _ _ ⟨left, renamed, agree⟩ otherRenamed
  exact agree.of_renamed renamed otherRenamed

/-- Trees compare as before when their events are renamed. -/
theorem Node.structurallyEqual_renamed {left right otherLeft otherRight : Node β}
    (leftRenamed : left.Matches (Event.Renamed before after) otherLeft)
    (rightRenamed : right.Matches (Event.Renamed before after) otherRight) :
    otherLeft.structurallyEqual after otherRight = left.structurallyEqual before right := by
  rw [Bool.eq_iff_iff, structurallyEqual_iff, structurallyEqual_iff]
  constructor
  · exact Node.Matches.of_renamed (leftRenamed.flip Event.Renamed.symm)
      (rightRenamed.flip Event.Renamed.symm)
  · exact Node.Matches.of_renamed leftRenamed rightRenamed

end

end EventSheet
