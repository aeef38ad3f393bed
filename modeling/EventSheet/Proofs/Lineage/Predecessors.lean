import EventSheet.Proofs.Lineage.Origins
namespace EventSheet

/-! # Predecessors

A copy that remembers its source points at the node it was made from, and not at what that node
remembers itself. In such a copy of a forest every node does so, in that of a node the top one
only. But for these links the copies are those of a plain clone, under the same ids. -/

variable {β : Type}

/-! ## Copies by their places -/

/-- The node in a position is copied once those before it are, at the same time whatever the copies
remember. -/
theorem Forest.getElem?_copy : ∀ (forest : List (Node β)) (position : Nat)
    (population : Population), ∃ reached : Population, ∀ link : Event β → Option NodeId,
      (Forest.copy link forest population).1[position]? =
        forest[position]?.map fun node => (node.copy link reached).1
  | [], _, population => ⟨population, fun _ => rfl⟩
  | _ :: _, 0, population => ⟨population, fun _ => rfl⟩
  | head :: tail, position + 1, population => by
      rcases getElem?_copy tail position (head.copy Event.remembered population).2 with
        ⟨reached, copied⟩
      refine ⟨reached, fun link => ?_⟩
      rw [List.getElem?_cons_succ, ← copied, head.population_copy Event.remembered link]
      rfl

/-- What stands at a place of siblings' copies, when it is known what stands at the rest of the
place in the copy of the sibling it leads through. -/
theorem Forest.bind_copy (forest : Forest β) (population : Population) (position : Nat)
    {rest : Place}
    (below : ∀ (node : Node β) (population : Population), ∃ reached : Population,
      ∀ link : Event β → Option NodeId, (node.copy link population).1.atPlace? rest =
        (node.atPlace? rest).map fun found => (found.copy link reached).1) :
    ∃ reached : Population, ∀ link : Event β → Option NodeId,
      (Forest.copy link forest population).1[position]?.bind (Node.atPlace? rest) =
        (forest[position]?.bind (Node.atPlace? rest)).map
          fun found => (found.copy link reached).1 := by
  rcases getElem?_copy forest position population with ⟨between, inPosition⟩
  cases found : forest[position]? with
  | none =>
      refine ⟨between, fun link => ?_⟩
      rw [inPosition link, found]
      rfl
  | some node =>
      rcases below node between with ⟨reached, copied⟩
      refine ⟨reached, fun link => ?_⟩
      rw [inPosition link, found]
      exact copied link

theorem Node.atPlace?_copy : ∀ (place : Place) (node : Node β) (population : Population),
    ∃ reached : Population, ∀ link : Event β → Option NodeId,
      (node.copy link population).1.atPlace? place =
        (node.atPlace? place).map fun found => (found.copy link reached).1
  | [], _, population => ⟨population, fun _ => rfl⟩
  | position :: rest, ⟨event, subEvents⟩, population => by
      rcases Forest.bind_copy subEvents (event.copy Event.remembered population).2 position
        (atPlace?_copy rest) with ⟨reached, copied⟩
      refine ⟨reached, fun link => ?_⟩
      rw [atPlace?_cons, atPlace?_cons, ← copied link]
      rfl

/-- The copy of a forest has at every place a copy of the node at that place, under an id that
does not depend on what the copies remember. -/
theorem Forest.atPlace?_copy (place : Place) (forest : Forest β) (population : Population) :
    ∃ reached : Population, ∀ link : Event β → Option NodeId,
      atPlace? place (Forest.copy link forest population).1 =
        (atPlace? place forest).map fun found => (found.copy link reached).1 := by
  cases place with
  | nil => exact ⟨population, fun _ => rfl⟩
  | cons position rest =>
      simp only [atPlace?_cons]
      exact bind_copy forest population position (Node.atPlace?_copy rest)

/-! ## Whom a copy stands for -/

/-- Whatever became of the nodes since, the node an event remembers is the one of an id while that
exists, and the event stands for it as long; then it stands for itself again. -/
def Event.PointsAt (id : NodeId) (event : Event β) : Prop :=
  ∀ population : Population,
    event.remembered? population = (if population.isAlive id then some id else none) ∧
      event.sourceId population = if population.isAlive id then id else event.id

theorem Event.pointsAt_of_remembered {event : Event β} {id : NodeId}
    (remembers : event.remembered = some id) : event.PointsAt id := by
  intro population
  have original : event.remembered? population =
      if population.isAlive id then some id else none := by
    rw [remembered?, Population.resolve, remembers, Option.filter_some]
  refine ⟨original, ?_⟩
  rw [sourceId, original]
  split <;> rfl

/-! ## Clones that remember -/

/-- A forest cloned with its lineage is at every place what the plain clone is there, but for
remembering the node of the forest at that place. -/
theorem Forest.atPlace?_cloneRemembering {forest : Forest β} {place : Place} {source : Node β}
    (found : atPlace? place forest = some source) (population : Population) :
    ∃ plain copy, atPlace? place (clone forest population).1 = some plain ∧
      atPlace? place (cloneRemembering forest population).1 = some copy ∧
      plain.event = { source.event with id := plain.id } ∧
      copy.event = { plain.event with remembered := some source.id } := by
  rcases atPlace?_copy place forest population with ⟨reached, copied⟩
  rw [clone_eq_copy, cloneRemembering_eq_copy, copied, copied, found]
  rcases source with ⟨event, subEvents⟩
  exact ⟨_, _, rfl, rfl, rfl, rfl⟩

/-- There is nothing in a copy where there is nothing in the forest. -/
theorem Forest.atPlace?_clones_eq_none {forest : Forest β} {place : Place}
    (missing : atPlace? place forest = none) (population : Population) :
    atPlace? place (clone forest population).1 = none ∧
      atPlace? place (cloneRemembering forest population).1 = none := by
  rcases atPlace?_copy place forest population with ⟨reached, copied⟩
  rw [clone_eq_copy, cloneRemembering_eq_copy, copied, copied, missing]
  exact ⟨rfl, rfl⟩

/-- A plain clone of a node remembers at every place what the node remembers there. -/
theorem Node.atPlace?_clone {node source : Node β} {place : Place}
    (found : node.atPlace? place = some source) (population : Population) :
    ∃ plain, (node.clone population).1.atPlace? place = some plain ∧
      plain.event = { source.event with id := plain.id } := by
  rcases atPlace?_copy place node population with ⟨reached, copied⟩
  rw [clone_eq_copy, copied, found]
  rcases source with ⟨event, subEvents⟩
  exact ⟨_, rfl, rfl⟩

/-- Cloned with its lineage, a forest gives the plain clone in which every node points at the one
it was made from, whatever that one remembers. A node gives the plain clone in which the top node
points at it; the nodes below remember what the nodes they were made from remember. -/
theorem clones_point_at_predecessors (forest : Forest β) (node : Node β)
    (population : Population) :
    ((Forest.cloneRemembering forest population).2 = (Forest.clone forest population).2 ∧
      (∀ place, Forest.atPlace? place forest = none →
        Forest.atPlace? place (Forest.clone forest population).1 = none ∧
          Forest.atPlace? place (Forest.cloneRemembering forest population).1 = none) ∧
      ∀ place source, Forest.atPlace? place forest = some source → ∃ plain copy,
        Forest.atPlace? place (Forest.clone forest population).1 = some plain ∧
          Forest.atPlace? place (Forest.cloneRemembering forest population).1 = some copy ∧
          plain.event = { source.event with id := plain.id } ∧
          copy.event = { plain.event with remembered := some source.id } ∧
          copy.event.PointsAt source.id) ∧
    (node.cloneRemembering population).2 = (node.clone population).2 ∧
      (node.cloneRemembering population).1.event =
        { (node.clone population).1.event with remembered := some node.id } ∧
      (node.cloneRemembering population).1.event.PointsAt node.id ∧
      (node.cloneRemembering population).1.subEvents = (node.clone population).1.subEvents ∧
      ∀ position rest source, node.atPlace? (position :: rest) = some source → ∃ copy,
        (node.cloneRemembering population).1.atPlace? (position :: rest) = some copy ∧
          copy.event = { source.event with id := copy.id } := by
  refine ⟨⟨?_, fun place missing => Forest.atPlace?_clones_eq_none missing population, ?_⟩,
    rfl, rfl, Event.pointsAt_of_remembered rfl, rfl, ?_⟩
  · rw [Forest.cloneRemembering_eq_copy, Forest.clone_eq_copy,
      Forest.population_copy Event.itself Event.remembered]
  · intro place source found
    rcases Forest.atPlace?_cloneRemembering found population with
      ⟨plain, copy, isPlain, isCopy, same, linked⟩
    refine ⟨plain, copy, isPlain, isCopy, same, linked, ?_⟩
    apply Event.pointsAt_of_remembered
    rw [linked]
  · intro position rest source found
    rcases Node.atPlace?_clone found population with ⟨copy, isCopy, same⟩
    refine ⟨copy, ?_, same⟩
    rw [Node.atPlace?_cons] at isCopy ⊢
    exact isCopy

/-- The second take of a scene. Both its nodes remember those of the first take, of which the line
is gone. -/
def secondTake : Node Kind.Builtin where
  event := { id := 3, behavior := .standard {}, remembered := some 1 }
  subEvents := [{ event := { id := 4, behavior := .standard {}, remembered := some 2 } }]

def takes : Population := ⟨#[{}, { alive := false }, {}, {}]⟩

/-- In a third take the line stands for that of the second one, as long as it is there; in a clone
of the scene alone it still remembers the line that is gone. -/
theorem thirdTake_points_at_secondTake : ∃ source line kept,
    Forest.atPlace? [0, 0] [secondTake] = some source ∧
      source.event.remembered = some 2 ∧
      Forest.atPlace? [0, 0] (Forest.cloneRemembering [secondTake] takes).1 = some line ∧
      line.event.remembered? (Forest.cloneRemembering [secondTake] takes).2 = some 4 ∧
      line.event.sourceId ((Forest.cloneRemembering [secondTake] takes).2.retire 4) = line.id ∧
      (secondTake.cloneRemembering takes).1.atPlace? [0] = some kept ∧
      kept.event.remembered = some 2 := by
  have points := clones_point_at_predecessors [secondTake] secondTake takes
  rcases points.1.2.2 [0, 0] _ rfl with ⟨plain, line, _, isLine, _, _, pointsAt⟩
  rcases points.2.2.2.2.2 0 [] _ rfl with ⟨kept, isKept, same⟩
  have there : (Forest.cloneRemembering [secondTake] takes).2.isAlive 4 = true := by
    decide +kernel
  have gone : ((Forest.cloneRemembering [secondTake] takes).2.retire 4).isAlive 4 = false := by
    decide +kernel
  exact ⟨_, line, kept, rfl, rfl, isLine, (pointsAt _).1.trans (if_pos there),
    (pointsAt _).2.trans (if_neg (ne_true_of_eq_false gone)), isKept,
    congrArg Event.remembered same⟩

end EventSheet
