import EventSheet.Proofs.Comparison.Positions
import EventSheet.Proofs.Lineage.Cloning
namespace EventSheet

/-! # How far structural equality is an equivalence

The shares of samples are compared as floats compare. So structural equality is symmetric and
transitive, but a node equals itself, and its clones equal it, only as long as every share
published in its tree is a number. -/

/-! ## Samples -/

namespace Percent

theorem floatEqual_self (percent : Percent) : percent.floatEqual percent = !percent.isNaN := by
  simp [floatEqual]

theorem floatEqual_iff (left right : Percent) :
    left.floatEqual right = true ↔ left.isNaN = false ∧ right.isNaN = false ∧
      (left = right ∨ left.isZero = true ∧ right.isZero = true) := by
  rcases left with ⟨left⟩
  rcases right with ⟨right⟩
  simp [floatEqual, and_assoc]

theorem floatEqual_symm {left right : Percent} (equal : left.floatEqual right = true) :
    right.floatEqual left = true := by
  rw [floatEqual_iff] at equal ⊢
  rcases equal with ⟨leftNumber, rightNumber, alike⟩
  exact ⟨rightNumber, leftNumber, alike.imp Eq.symm And.symm⟩

theorem floatEqual_trans {left middle right : Percent} (first : left.floatEqual middle = true)
    (second : middle.floatEqual right = true) : left.floatEqual right = true := by
  rw [floatEqual_iff] at first
  rcases first with ⟨leftNumber, _, same | ⟨leftZero, middleZero⟩⟩
  · exact same ▸ second
  · rw [floatEqual_iff] at second ⊢
    rcases second with ⟨_, rightNumber, same | ⟨_, rightZero⟩⟩
    · exact ⟨leftNumber, rightNumber, .inr ⟨leftZero, same ▸ middleZero⟩⟩
    · exact ⟨leftNumber, rightNumber, .inr ⟨leftZero, rightZero⟩⟩

end Percent

namespace Sample

theorem floatEqual_iff (left right : Sample) : left.floatEqual right = true ↔
    left.time = right.time ∧ left.percent.floatEqual right.percent = true := by
  rw [floatEqual, Bool.and_eq_true, decide_eq_true_eq]

theorem floatEqual_symm {left right : Sample} (equal : left.floatEqual right = true) :
    right.floatEqual left = true := by
  rw [floatEqual_iff] at equal ⊢
  exact ⟨equal.1.symm, Percent.floatEqual_symm equal.2⟩

theorem floatEqual_trans {left middle right : Sample} (first : left.floatEqual middle = true)
    (second : middle.floatEqual right = true) : left.floatEqual right = true := by
  rw [floatEqual_iff] at *
  exact ⟨first.1.trans second.1, Percent.floatEqual_trans first.2 second.2⟩

end Sample

/-! ## Events and trees -/

variable {β : Type}

section

variable [EventKind β] {population : Population}

namespace Event.Agree

variable {left middle right : Event β}

theorem symm (agree : Agree population left right) : Agree population right left :=
  ⟨agree.kind.symm, agree.disabled.symm, agree.folded.symm, Sample.floatEqual_symm agree.sample,
    agree.conditionLists.symm, agree.actionLists.symm, agree.payload.symm⟩

theorem trans (first : Agree population left middle) (second : Agree population middle right) :
    Agree population left right where
  kind := first.kind.trans second.kind
  disabled := first.disabled.trans second.disabled
  folded := first.folded.trans second.folded
  sample := Sample.floatEqual_trans first.sample second.sample
  conditionLists := first.conditionLists.trans second.conditionLists
  actionLists := first.actionLists.trans second.actionLists
  payload := first.payload.trans second.payload

/-- All that keeps an event from agreeing with itself is a share that is not a number. -/
theorem self_iff (event : Event β) : Agree population event event ↔
    (population.sample event.id).percent.isNaN = false := by
  have equal : (population.sample event.id).floatEqual (population.sample event.id) = true ↔
      (population.sample event.id).percent.isNaN = false := by
    rw [Sample.floatEqual_iff, Percent.floatEqual_self, Bool.not_eq_true']
    exact and_iff_right rfl
  rw [← equal]
  exact ⟨Agree.sample, fun sample => ⟨rfl, rfl, rfl, sample, rfl, rfl, rfl⟩⟩

end Event.Agree

end

section

variable {related : Event β → Event β → Prop}

mutual
theorem Node.matches_self_iff : ∀ node : Node β,
    node.Matches related node ↔ ∀ event ∈ node.members, related event event
  | ⟨event, subEvents⟩ => by
      rw [Node.Matches, Forest.matches_self_iff subEvents, Node.members, List.forall_mem_cons]

theorem Forest.matches_self_iff : ∀ forest : List (Node β),
    Forest.Matches related forest forest ↔ ∀ event ∈ Forest.members forest, related event event
  | [] => iff_of_true trivial fun _ isMember => nomatch isMember
  | head :: tail => by
      rw [Forest.Matches, head.matches_self_iff, Forest.matches_self_iff tail, Forest.members,
        List.forall_mem_append]
end

end

section

variable {before after : Population}

mutual
theorem Node.ClonedFrom.renamed : ∀ {copy source : Node β}, copy.ClonedFrom before after source →
    source.Matches (Event.Renamed before after) copy
  | ⟨_, _⟩, ⟨_, _⟩, ⟨same, sample, below⟩ =>
      ⟨⟨(congrArg Event.behavior same :), (congrArg Event.disabled same :),
        (congrArg Event.folded same :), sample⟩, Forest.ClonedFrom.renamed below⟩

theorem Forest.ClonedFrom.renamed : ∀ {copies sources : List (Node β)},
    Forest.ClonedFrom before after copies sources →
      Forest.Matches (Event.Renamed before after) sources copies
  | [], [], _ => trivial
  | _ :: _, _ :: _, ⟨head, others⟩ =>
      ⟨Node.ClonedFrom.renamed head, Forest.ClonedFrom.renamed others⟩
end

/-- A tree whose nodes were all made stays what it is while others are. -/
theorem Node.renamed_self (continues : before.Continues after) {node : Node β}
    (made : ∀ id ∈ node.ids, id < before.nextId) :
    node.Matches (Event.Renamed before after) node := by
  rw [Node.ids_eq_map_members, List.forall_mem_map] at made
  rw [Node.matches_self_iff]
  exact fun event isMember => ⟨rfl, rfl, rfl, continues.sample event.id (made event isMember)⟩

end

namespace Node

variable [EventKind β] {population : Population}

theorem structurallyEqual_self_iff (node : Node β) :
    node.structurallyEqual population node = true ↔
      ∀ id ∈ node.ids, (population.sample id).percent.isNaN = false := by
  rw [structurallyEqual_iff, matches_self_iff, ids_eq_map_members, List.forall_mem_map]
  simp only [Event.Agree.self_iff]

theorem structurallyEqual_comm (left right : Node β) :
    left.structurallyEqual population right = right.structurallyEqual population left := by
  rw [Bool.eq_iff_iff, structurallyEqual_iff, structurallyEqual_iff]
  exact ⟨Matches.flip Event.Agree.symm, Matches.flip Event.Agree.symm⟩

theorem structurallyEqual_trans {left middle right : Node β}
    (first : left.structurallyEqual population middle = true)
    (second : middle.structurallyEqual population right = true) :
    left.structurallyEqual population right = true := by
  rw [structurallyEqual_iff] at *
  exact first.compose (fun agree other => agree.trans other) second

/-- A clone compares with its source as the source did with itself. -/
theorem structurallyEqual_clone {node : Node β} (made : ∀ id ∈ node.ids, id < population.nextId) :
    (node.clone population).1.structurallyEqual (node.clone population).2 node =
      node.structurallyEqual population node := by
  rw [clone_eq_copy]
  have continues := Population.Continues.copyNode Event.remembered node population
  have cloned := clonedFrom_copy population node (.refl _) made (.refl _)
  exact structurallyEqual_renamed cloned.renamed (renamed_self continues made)

/-- A node is structurally equal to itself and to its clone as long as all shares published in its
tree are numbers, and only then. Structural equality is symmetric and transitive in any case. -/
theorem structurallyEqual_clone_iff (population : Population) :
    (∀ node : Node β, (∀ id ∈ node.ids, id < population.nextId) →
      ((node.clone population).1.structurallyEqual (node.clone population).2 node = true ↔
        ∀ id ∈ node.ids, (population.sample id).percent.isNaN = false) ∧
      (node.structurallyEqual population node = true ↔
        ∀ id ∈ node.ids, (population.sample id).percent.isNaN = false)) ∧
      (∀ left right : Node β,
        left.structurallyEqual population right = right.structurallyEqual population left) ∧
      ∀ left middle right : Node β, left.structurallyEqual population middle = true →
        middle.structurallyEqual population right = true →
          left.structurallyEqual population right = true := by
  refine ⟨?_, structurallyEqual_comm, fun _ _ _ => structurallyEqual_trans⟩
  intro node made
  rw [structurallyEqual_clone made]
  exact ⟨structurallyEqual_self_iff node, structurallyEqual_self_iff node⟩

/-- Two nodes, the first with a share of half a run. -/
def halfTime : Population :=
  { identities := #[{ sample := { percent := ⟨0x42480000⟩ } }, {}] }

def dance : Node Kind.Builtin where
  event := { id := 1, behavior := .standard { actions := [{ name := "dance" }] } }
  subEvents := [{ event := { id := 2, behavior := .comment { text := "slowly" } } }]

/-- A dance equals its clone, and so, by way of the dance, the clone equals itself. -/
theorem structurallyEqual_clone_iff_dance :
    (∀ id ∈ dance.ids, id < halfTime.nextId) ∧
      (∀ id ∈ dance.ids, (halfTime.sample id).percent.isNaN = false) ∧
        (dance.clone halfTime).1.structurallyEqual (dance.clone halfTime).2 dance = true ∧
          (dance.clone halfTime).1.structurallyEqual (dance.clone halfTime).2
            (dance.clone halfTime).1 = true := by
  have made : ∀ id ∈ dance.ids, id < halfTime.nextId := by decide
  have numbers : ∀ id ∈ dance.ids, (halfTime.sample id).percent.isNaN = false := by decide
  have equal := ((structurallyEqual_clone_iff halfTime).1 dance made).1.mpr numbers
  have laws := structurallyEqual_clone_iff (dance.clone halfTime).2 (β := Kind.Builtin)
  exact ⟨made, numbers, equal, laws.2.2 _ dance _ equal ((laws.2.1 _ _).trans equal)⟩

end Node

namespace Session

def hum : Node Kind.Builtin where
  event := { id := 1, behavior := .standard { actions := [{ name := "hum" }] } }

/-- The share of a run that is published is not a number. -/
def silentRun : List (Operation Kind.Builtin) :=
  [.build hum.behavior [] "hum", .takeHandle ⟨.held "hum", []⟩ "hum",
    .publish "hum" { percent := ⟨0x7FC00000⟩ }]

/-- The sample is taken, and the node equals neither its clone nor itself. -/
theorem silentRun_unlike_itself :
    (after silentRun).workspace.nodeAt? ⟨.held "hum", []⟩ = some hum ∧
      (after silentRun).population.sample hum.id = { percent := ⟨0x7FC00000⟩ } ∧
        (hum.clone (after silentRun).population).1.structurallyEqual
          (hum.clone (after silentRun).population).2 hum = false ∧
            hum.structurallyEqual (after silentRun).population hum = false := by
  have sample : (after silentRun).population.sample hum.id = { percent := ⟨0x7FC00000⟩ } := rfl
  have different : hum.structurallyEqual (after silentRun).population hum = false := by
    rw [Bool.eq_false_iff, Ne, Node.structurallyEqual_self_iff]
    intro numbers
    have number := numbers hum.id List.mem_cons_self
    rw [sample] at number
    exact nomatch number
  have made : ∀ id ∈ hum.ids, id < (after silentRun).population.nextId := by decide
  exact ⟨rfl, sample, (Node.structurallyEqual_clone made).trans different, different⟩

end Session

end EventSheet
