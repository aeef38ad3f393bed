import EventSheet.Behavior
import EventSheet.Proofs.Lineage.Subtrees
namespace EventSheet

/-! # Walks over one forest

Visiting, counting and searching take the nodes of a forest up in orders of their own, and tell of
the same nodes. When no two nodes have the same id, a search ends at the only node that has it, and
what is changed there is changed nowhere else. -/

variable {β : Type}

/-! ## Visits -/

theorem Node.walk_eq (depth : Nat) (node : Node β) :
    node.walk depth = (node, depth) :: Forest.walkFrom (depth + 1) node.subEvents := by
  cases node
  rw [walk]

mutual
theorem Node.length_walk : ∀ (node : Node β) (depth : Nat), (node.walk depth).length = node.count
  | ⟨event, subEvents⟩, depth => by
      rw [Node.walk, List.length_cons, Forest.length_walkFrom subEvents, Node.count]

/-- There are as many visits as nodes. -/
theorem Forest.length_walkFrom : ∀ (forest : List (Node β)) (depth : Nat),
    (Forest.walkFrom depth forest).length = Forest.count forest
  | [], _ => rfl
  | head :: tail, depth => by
      rw [Forest.walkFrom, List.length_append, head.length_walk, Forest.length_walkFrom tail,
        Forest.count]
end

theorem Forest.walkFrom_append (depth : Nat) (left right : Forest β) :
    walkFrom depth (left ++ right) = walkFrom depth left ++ walkFrom depth right := by
  induction left with
  | nil => rfl
  | cons head tail induction =>
      rw [List.cons_append, walkFrom, induction, walkFrom, List.append_assoc]

section

variable {forest : Forest β} {position : Nat} {node : Node β}

theorem Forest.walkFrom_of_found (depth : Nat) (found : forest[position]? = some node) :
    walkFrom depth forest = walkFrom depth (forest.take position) ++
      (node.walk depth ++ walkFrom depth (forest.drop (position + 1))) := by
  rw [← walkFrom, ← drop_of_found found, ← walkFrom_append, List.take_append_drop]

theorem Forest.events_modify (depth : Nat) (found : forest[position]? = some node)
    (change : Node β → Node β) :
    events depth (forest.modify position change) = events depth (forest.take position) ++
      ((change node).events depth ++ events depth (forest.drop (position + 1))) := by
  rcases List.getElem?_eq_some_iff.mp found with ⟨inside, same⟩
  rw [List.modify_eq_take_cons_drop inside, same, events_append, events_cons]

end

/-! ## Places -/

theorem Node.atPlace?_concat (position : Nat) : ∀ (place : Place) (node : Node β),
    node.atPlace? (place ++ [position]) =
      (node.atPlace? place).bind fun owner => owner.subEvents[position]?
  | [], node => by
      rw [List.nil_append, atPlace?_cons, atPlace?, Option.bind_some]
      exact Option.bind_fun_some _
  | first :: rest, node => by
      rw [List.cons_append, atPlace?_cons, atPlace?_cons, Option.bind_assoc]
      congr 1
      funext child
      exact child.atPlace?_concat position rest

theorem Node.atPlace?_modifyAt (change : Node β → Node β) {old : Node β} :
    ∀ (place : Place) (node : Node β), node.atPlace? place = some old →
      (node.modifyAt change place).atPlace? place = some (change old)
  | [], node, found => by
      cases found
      rfl
  | position :: rest, ⟨event, subEvents⟩, found => by
      rcases exists_below_of_atPlace? found with ⟨child, isChild, below⟩
      rw [modifyAt, atPlace?_cons, List.getElem?_modify_eq, isChild]
      exact atPlace?_modifyAt change rest child below

/-- At the place of a change stands the changed node. -/
theorem Forest.atPlace?_modifyAt (change : Node β → Node β) {place : Place} {forest : Forest β}
    {old : Node β} (found : atPlace? place forest = some old) :
    atPlace? place (modifyAt change place forest) = some (change old) := by
  rcases exists_of_atPlace? found with ⟨position, rest, node, rfl, isNode, below⟩
  rw [modifyAt, atPlace?_cons, List.getElem?_modify_eq, isNode]
  exact Node.atPlace?_modifyAt change rest node below

/-! ## Searching -/

namespace Spot

variable {forest : Forest β} {spot child : Spot β}

/-- The node of the spot is at the place of the spot. -/
def StandsIn (forest : Forest β) (spot : Spot β) : Prop :=
  Forest.atPlace? spot.place forest = some spot.node

theorem mem_siblings {positions : List Nat} : spot ∈ siblings positions forest ↔
    ∃ position, forest[position]? = some spot.node ∧ spot.positions = position :: positions := by
  rw [siblings, List.mem_map]
  constructor
  · rintro ⟨entry, isEntry, rfl⟩
    exact ⟨entry.2, List.mem_zipIdx_iff_getElem?.mp isEntry, rfl⟩
  · rintro ⟨position, found, led⟩
    refine ⟨(spot.node, position), List.mem_zipIdx_iff_getElem?.mpr found, ?_⟩
    rw [← led]

theorem standsIn_of_top (isTop : spot ∈ siblings [] forest) : spot.StandsIn forest := by
  rcases mem_siblings.mp isTop with ⟨position, found, led⟩
  rw [StandsIn, place, led, List.reverse_singleton, Forest.atPlace?, found]
  rfl

theorem StandsIn.below (stands : spot.StandsIn forest)
    (isChild : child ∈ siblings spot.positions spot.node.subEvents) : child.StandsIn forest := by
  rcases mem_siblings.mp isChild with ⟨position, found, led⟩
  rcases Forest.exists_of_atPlace? stands with ⟨first, rest, node, leads, isNode, inner⟩
  rw [place] at leads
  rw [StandsIn, place, led, List.reverse_cons, leads, List.cons_append, Forest.atPlace?_cons,
    isNode, Option.bind_some, Node.atPlace?_concat, inner, Option.bind_some]
  exact found

end Spot

namespace Forest

variable {forest : Forest β} {id : NodeId} {spot : Spot β} {node : Node β}

/-- A search among nodes of a forest ends at a node of the forest that has the id. -/
theorem standsIn_of_searchPending? {pending : List (Spot β)}
    (stand : ∀ other ∈ pending, other.StandsIn forest)
    (found : searchPending? id pending = some spot) : spot.StandsIn forest ∧ spot.node.id = id := by
  fun_induction searchPending? id pending with
  | case1 => cases found
  | case2 next pending same =>
      cases found
      exact ⟨stand spot List.mem_cons_self, same⟩
  | case3 next pending differs induction =>
      rw [List.forall_mem_cons] at stand
      refine induction ?_ found
      rw [List.forall_mem_append]
      exact ⟨fun child isChild => stand.1.below (List.mem_reverse.mp isChild), stand.2⟩

/-- A search passes every tree by. -/
theorem searchPending?_eq_none_iff {pending : List (Spot β)} :
    searchPending? id pending = none ↔
      ∀ tree ∈ subtrees (pending.map Spot.node), tree.id ≠ id := by
  fun_induction searchPending? id pending with
  | case1 => exact ⟨fun _ _ isTree => (nomatch isTree), fun _ => rfl⟩
  | case2 spot pending same =>
      refine ⟨fun impossible => (nomatch impossible), fun differ => absurd same (differ _ ?_)⟩
      exact mem_subtrees_of_mem List.mem_cons_self
  | case3 spot pending differs induction =>
      have below (tree : Node β) : tree ∈ subtrees spot.node.subEvents.reverse ↔
          tree ∈ subtrees spot.node.subEvents := by
        simp only [mem_subtrees, List.mem_reverse]
      rw [induction, List.map_append, List.map_reverse, Spot.map_node_siblings, subtrees_append,
        List.map_cons, subtrees, Node.subtrees_eq, List.forall_mem_append, List.forall_mem_append,
        List.forall_mem_cons]
      simp only [below, ne_eq, differs, not_false_eq_true, true_and]

theorem standsIn_of_search? (found : search? id forest = some spot) :
    spot.StandsIn forest ∧ spot.node.id = id :=
  standsIn_of_searchPending?
    (fun _ isTop => Spot.standsIn_of_top (List.mem_reverse.mp isTop)) found

theorem search?_eq_none_iff : search? id forest = none ↔ ∀ tree ∈ subtrees forest, tree.id ≠ id := by
  rw [search?, searchPending?_eq_none_iff, List.map_reverse, Spot.map_node_siblings]
  simp only [mem_subtrees, List.mem_reverse]

theorem find?_eq_none_iff : find? id forest = none ↔ ∀ tree ∈ subtrees forest, tree.id ≠ id := by
  rw [find?, Option.map_eq_none_iff, search?_eq_none_iff]

/-- Where no two nodes have the same id, a search ends at the tree that has it. -/
theorem find?_eq_some_iff (distinct : (ids forest).Nodup) :
    find? id forest = some node ↔ node ∈ subtrees forest ∧ node.id = id := by
  constructor
  · intro found
    rcases Option.map_eq_some_iff.mp found with ⟨spot, isSpot, rfl⟩
    rcases standsIn_of_search? isSpot with ⟨stands, same⟩
    exact ⟨mem_subtrees_atPlace? stands, same⟩
  · rintro ⟨isTree, rfl⟩
    cases found : find? node.id forest with
    | none => exact absurd rfl (find?_eq_none_iff.mp found node isTree)
    | some other =>
        rcases Option.map_eq_some_iff.mp found with ⟨spot, isSpot, rfl⟩
        rcases standsIn_of_search? isSpot with ⟨stands, same⟩
        rw [eq_of_id_eq distinct (mem_subtrees_atPlace? stands) isTree same]

/-- A search that tells the place tells of the same node. -/
theorem bind_placeOf? (id : NodeId) (forest : Forest β) :
    (placeOf? id forest).bind (fun place => atPlace? place forest) = find? id forest := by
  rw [placeOf?, find?]
  cases found : search? id forest with
  | none => rfl
  | some spot => exact (standsIn_of_search? found).1

end Forest

/-! ## The one visit of an id -/

section

variable {forest : Forest β} {front behind : List (Node β × Nat)} {visit : Node β × Nat}
  {id : NodeId} {node : Node β}

/-- Around a visit no other is of a node of the same id. -/
theorem Forest.id_ne_of_nodup
    (distinct : ((front ++ visit :: behind).map fun other => other.1.id).Nodup) :
    ∀ other ∈ front ++ behind, other.1.id ≠ visit.1.id := by
  rw [List.map_append, List.map_cons, List.nodup_middle, List.nodup_cons, ← List.map_append]
    at distinct
  intro other isOther same
  exact distinct.1 (List.mem_map.mpr ⟨other, isOther, same⟩)

theorem Forest.filter_walk (distinct : (ids forest).Nodup) (isVisit : visit ∈ walk forest) :
    (walk forest).filter (fun other => other.1.id = visit.1.id) = [visit] := by
  rcases List.append_of_mem isVisit with ⟨front, behind, split⟩
  rw [← map_id_walk, split] at distinct
  have others := List.forall_mem_append.mp (id_ne_of_nodup distinct)
  have none (list : List (Node β × Nat)) (differ : ∀ other ∈ list, other.1.id ≠ visit.1.id) :
      list.filter (fun other => other.1.id = visit.1.id) = [] := by
    rw [List.filter_eq_nil_iff]
    exact fun other isOther => by simpa using differ other isOther
  rw [split, List.filter_append, List.filter_cons_of_pos (by simp), none front others.1,
    none behind others.2, List.nil_append]

/-- A search ends at the node of the only visit with the id. -/
theorem Forest.find?_eq_some_iff_visit (distinct : (ids forest).Nodup) :
    find? id forest = some node ↔
      ∃ depth, (walk forest).filter (fun visit => visit.1.id = id) = [(node, depth)] := by
  rw [find?_eq_some_iff distinct]
  constructor
  · rintro ⟨isTree, rfl⟩
    rw [← map_fst_walkFrom forest 0] at isTree
    rcases List.mem_map.mp isTree with ⟨visit, isVisit, rfl⟩
    exact ⟨visit.2, filter_walk distinct isVisit⟩
  · rintro ⟨depth, only⟩
    have isVisit : (node, depth) ∈ (walk forest).filter fun visit => visit.1.id = id := by
      rw [only]
      exact List.mem_singleton_self _
    rw [List.mem_filter, decide_eq_true_eq] at isVisit
    rw [← map_fst_walkFrom forest 0]
    exact ⟨List.mem_map_of_mem isVisit.1, isVisit.2⟩

theorem Forest.find?_eq_none_iff_visit :
    find? id forest = none ↔ ∀ visit ∈ walk forest, visit.1.id ≠ id := by
  rw [find?_eq_none_iff, ← map_fst_walkFrom forest 0, List.forall_mem_map]
  rfl

end

/-! ## Edits -/

/-- An edit of the flags or the lists of nodes: their ids and sub-events stay. -/
structure Node.Touches (change : Node β → Node β) : Prop where
  id : ∀ node, (change node).id = node.id
  subEvents : ∀ node, (change node).subEvents = node.subEvents

namespace Node.Touches

theorem setDisabled (disabled : Bool) : Touches (Node.setDisabled (β := β) disabled) :=
  ⟨fun _ => rfl, fun _ => rfl⟩

theorem setFolded (folded : Bool) : Touches (Node.setFolded (β := β) folded) :=
  ⟨fun _ => rfl, fun _ => rfl⟩

theorem editList [EventKind β] (role : ListRole) (position : Nat)
    (edit : InstructionList → InstructionList) :
    Touches (Node.editList (β := β) role position edit) :=
  ⟨fun _ => rfl, fun _ => rfl⟩

/-- One edit after another. -/
theorem trans {first second : Node β → Node β} (one : Touches first) (other : Touches second) :
    Touches (second ∘ first) :=
  ⟨fun node => (other.id _).trans (one.id node),
    fun node => (other.subEvents _).trans (one.subEvents node)⟩

end Node.Touches

/-- What a visit shows of a node itself. -/
def Forest.eventOf (visit : Node β × Nat) : Event β × Nat := (visit.1.event, visit.2)

/-- The events are those of the visits, but for that of one node, which is exchanged. -/
def Forest.AmendsOne (old : Node β) (new : Event β) (visits : List (Node β × Nat))
    (events : List (Event β × Nat)) : Prop :=
  ∃ front behind depth, visits = front ++ (old, depth) :: behind ∧
    events = front.map eventOf ++ (new, depth) :: behind.map eventOf

section

variable {old : Node β} {new : Event β} {visits : List (Node β × Nat)}
  {events : List (Event β × Nat)} {change : Node β → Node β}

theorem Forest.AmendsOne.within (amends : AmendsOne old new visits events)
    (before after : List (Node β × Nat)) :
    AmendsOne old new (before ++ (visits ++ after))
      (before.map eventOf ++ (events ++ after.map eventOf)) := by
  rcases amends with ⟨front, behind, depth, rfl, rfl⟩
  exact ⟨before ++ front, behind ++ after, depth, by simp, by simp⟩

/-- Where no two visits are of one id, the exchanged event is told by its id. -/
theorem Forest.AmendsOne.eq_map (amends : AmendsOne old (change old).event visits events)
    (distinct : (visits.map fun visit => visit.1.id).Nodup) :
    events = visits.map fun visit =>
      ((if visit.1.id = old.id then change visit.1 else visit.1).event, visit.2) := by
  rcases amends with ⟨front, behind, depth, rfl, rfl⟩
  have others := List.forall_mem_append.mp (id_ne_of_nodup distinct)
  have kept (list : List (Node β × Nat)) (differ : ∀ visit ∈ list, visit.1.id ≠ old.id) :
      list.map eventOf = list.map fun visit =>
        ((if visit.1.id = old.id then change visit.1 else visit.1).event, visit.2) := by
    apply List.map_congr_left
    intro visit isVisit
    rw [if_neg (differ visit isVisit)]
    rfl
  rw [kept front others.1, kept behind others.2, List.map_append, List.map_cons, if_pos rfl]

/-- A change at a place of a tree exchanges the event of the node there. -/
theorem Node.amendsOne_modifyAt (touches : Touches change) :
    ∀ (place : Place) (node : Node β) (depth : Nat), node.atPlace? place = some old →
      Forest.AmendsOne old (change old).event (node.walk depth)
        ((node.modifyAt change place).events depth)
  | [], node, depth, found => by
      cases found
      refine ⟨[], Forest.walkFrom (depth + 1) old.subEvents, depth, old.walk_eq depth, ?_⟩
      rw [modifyAt, events_eq, touches.subEvents]
      rfl
  | position :: rest, ⟨event, subEvents⟩, depth, found => by
      rcases exists_below_of_atPlace? found with ⟨child, isChild, below⟩
      have inner := amendsOne_modifyAt touches rest child (depth + 1) below
      rw [walk, Forest.walkFrom_of_found _ isChild, modifyAt, events_eq,
        Forest.events_modify _ isChild]
      exact inner.within
        ((⟨event, subEvents⟩, depth) ::
          Forest.walkFrom (depth + 1) (subEvents.take position))
        (Forest.walkFrom (depth + 1) (subEvents.drop (position + 1)))

theorem Forest.amendsOne_modifyAt (touches : Node.Touches change) {place : Place}
    {forest : Forest β} (found : atPlace? place forest = some old) :
    AmendsOne old (change old).event (walk forest)
      (Forest.events 0 (modifyAt change place forest)) := by
  rcases exists_of_atPlace? found with ⟨position, rest, node, rfl, isNode, below⟩
  have inner := Node.amendsOne_modifyAt touches rest node 0 below
  rw [walk, walkFrom_of_found 0 isNode, modifyAt, events_modify 0 isNode]
  exact inner.within (walkFrom 0 (forest.take position))
    (walkFrom 0 (forest.drop (position + 1)))

end

namespace Forest

variable {forest : Forest β} {change : Node β → Node β}

theorem editNode_of_found {id : NodeId} {spot : Spot β} (found : search? id forest = some spot)
    (change : Node β → Node β) :
    editNode id change forest = modifyAt change spot.place forest := by
  rw [editNode, placeOf?, found]
  rfl

theorem editNode_of_missing {id : NodeId} (missing : search? id forest = none)
    (change : Node β → Node β) : editNode id change forest = forest := by
  rw [editNode, placeOf?, missing]
  rfl

/-- An edit changes the event of the node with the id, and no other. -/
theorem events_editNode (distinct : (ids forest).Nodup) (touches : Node.Touches change)
    (id : NodeId) :
    (walk (editNode id change forest)).map eventOf = (walk forest).map fun visit =>
      ((if visit.1.id = id then change visit.1 else visit.1).event, visit.2) := by
  cases found : search? id forest with
  | none =>
      rw [editNode_of_missing found]
      apply List.map_congr_left
      intro visit isVisit
      have missing : find? id forest = none := by rw [find?, found, Option.map_none]
      rw [if_neg (find?_eq_none_iff_visit.mp missing visit isVisit)]
      rfl
  | some spot =>
      rcases standsIn_of_search? found with ⟨stands, rfl⟩
      rw [editNode_of_found found]
      exact (amendsOne_modifyAt touches stands).eq_map (by rwa [map_id_walk])

/-- An edit keeps the ids and their depths. -/
theorem rows_editNode (distinct : (ids forest).Nodup) (touches : Node.Touches change)
    (id : NodeId) :
    (walk (editNode id change forest)).map (fun visit => (visit.1.id, visit.2)) =
      (walk forest).map fun visit => (visit.1.id, visit.2) := by
  have rows := congrArg (List.map fun entry : Event β × Nat => (entry.1.id, entry.2))
    (events_editNode distinct touches id)
  rw [List.map_map, List.map_map] at rows
  refine Eq.trans rows (List.map_congr_left fun visit _ => ?_)
  rw [Function.comp_apply]
  split
  · exact congrArg (·, visit.2) (touches.id visit.1)
  · rfl

theorem ids_editNode (distinct : (ids forest).Nodup) (touches : Node.Touches change)
    (id : NodeId) : ids (editNode id change forest) = ids forest := by
  have rows := congrArg (List.map Prod.fst) (rows_editNode distinct touches id)
  rw [List.map_map, List.map_map] at rows
  rw [← map_id_walk, ← map_id_walk]
  exact rows

/-- After an edit a search ends at the changed node. -/
theorem find?_editNode (distinct : (ids forest).Nodup) (touches : Node.Touches change)
    (id : NodeId) :
    find? id (editNode id change forest) = (find? id forest).map change := by
  cases found : search? id forest with
  | none =>
      have missing : find? id forest = none := by rw [find?, found, Option.map_none]
      rw [editNode_of_missing found, missing, Option.map_none]
  | some spot =>
      rcases standsIn_of_search? found with ⟨stands, rfl⟩
      have changed := atPlace?_modifyAt change stands
      rw [← editNode_of_found found] at changed
      have before : find? spot.node.id forest = some spot.node := by
        rw [find?, found, Option.map_some]
      rw [before, Option.map_some, find?_eq_some_iff (by rwa [ids_editNode distinct touches])]
      exact ⟨mem_subtrees_atPlace? changed, touches.id spot.node⟩

/-- The walks over a forest tell of the same nodes. The visits come in pre-order with their nesting
depths, and counting gives their number. When no two nodes have the same id, a search for an id
ends at the node of the only visit that has it, also when it tells the place, and at none exactly
when no visit has it. An edit of flags or lists at that place changes the event of that node and no
other; the ids and depths of the visits stay. -/
theorem walks_agree (forest : Forest β) (distinct : (ids forest).Nodup) :
    visits forest = walk forest ∧
    countNodes forest = (visits forest).length ∧
    (∀ id,
      (∀ node, find? id forest = some node ↔
        ∃ depth, (visits forest).filter (fun visit => visit.1.id = id) = [(node, depth)]) ∧
      (find? id forest = none ↔ ∀ visit ∈ visits forest, visit.1.id ≠ id) ∧
      (placeOf? id forest).bind (fun place => atPlace? place forest) = find? id forest ∧
      (placeOf? id forest = none ↔ ∀ visit ∈ visits forest, visit.1.id ≠ id)) ∧
    ∀ id change, Node.Touches change →
      (visits (editNode id change forest)).map (fun visit => (visit.1.event, visit.2)) =
        (visits forest).map (fun visit =>
          ((if visit.1.id = id then change visit.1 else visit.1).event, visit.2)) ∧
      (visits (editNode id change forest)).map (fun visit => (visit.1.id, visit.2)) =
        (visits forest).map (fun visit => (visit.1.id, visit.2)) ∧
      find? id (editNode id change forest) = (find? id forest).map change := by
  have sameMisses (id : NodeId) : placeOf? id forest = none ↔ find? id forest = none := by
    rw [placeOf?, find?, Option.map_eq_none_iff, Option.map_eq_none_iff]
  simp only [visits_eq_walk]
  refine ⟨trivial, ?_, fun id => ⟨fun node => find?_eq_some_iff_visit distinct,
    find?_eq_none_iff_visit, bind_placeOf? id forest, ?_⟩, fun id change touches =>
    ⟨events_editNode distinct touches id, rows_editNode distinct touches id,
      find?_editNode distinct touches id⟩⟩
  · rw [countNodes_eq_count, walk, length_walkFrom]
  · rw [sameMisses, find?_eq_none_iff_visit]

end Forest

/-- Digging the beds, on a weekend. -/
def digging : Node Kind.Builtin :=
  ⟨{ id := 4, behavior := .standard { actions := [{ name := "dig" }] } }, []⟩

/-- Two things to do in the morning, and rest. -/
def weekend : Forest Kind.Builtin :=
  [⟨{ id := 1, behavior := .standard { actions := [{ name := "wake" }] } },
    [digging, ⟨{ id := 3, behavior := .comment { text := "roses" } }, []⟩]⟩,
    ⟨{ id := 2, behavior := .standard { actions := [{ name := "rest" }] } }, []⟩]

def crossOut (node : Node Kind.Builtin) : Node Kind.Builtin :=
  ((node.editList .actions 0 fun _ => []).setFolded true).setDisabled true

theorem touches_crossOut : Node.Touches crossOut :=
  ((Node.Touches.editList .actions 0 fun _ => []).trans (.setFolded true)).trans
    (.setDisabled true)

/-- It rains. -/
theorem weekend_walks_agree :
    (Forest.ids weekend).Nodup ∧ Node.Touches crossOut ∧
      Forest.countNodes weekend = 4 ∧
      Forest.find? 4 weekend = some digging ∧
      Forest.find? 7 weekend = none ∧
      (Forest.visits (Forest.editNode 4 crossOut weekend)).map
          (fun visit => (visit.1.id, visit.2)) = [(1, 0), (4, 1), (3, 1), (2, 0)] ∧
      (Forest.visits (Forest.editNode 4 crossOut weekend)).map
          (fun visit => visit.1.event.disabled) = [false, true, false, false] := by
  have distinct : (Forest.ids weekend).Nodup := by decide
  rcases Forest.walks_agree weekend distinct with ⟨visited, counted, searches, edits⟩
  rcases edits 4 crossOut touches_crossOut with ⟨events, rows, -⟩
  rw [visited] at counted searches events rows
  have flags := congrArg (List.map fun entry => entry.1.disabled) events
  rw [List.map_map, List.map_map] at flags
  exact ⟨distinct, touches_crossOut, counted, ((searches 4).1 digging).mpr ⟨1, rfl⟩,
    (searches 7).2.1.mpr (by decide), rows, flags⟩

end EventSheet
