import EventSheet.Proofs.Lineage.Places
namespace EventSheet

/-! # Trees in trees

What is said of every tree in a forest is said of the whole forest. A tree is known by its id when
no two nodes have the same one, and a tree at a place is replaced without a change to any other but
those around it. -/

variable {β : Type}

mutual
def Node.subtrees : Node β → List (Node β)
  | ⟨event, subEvents⟩ => ⟨event, subEvents⟩ :: Forest.subtrees subEvents

/-- The trees of a forest with all trees in them, in pre-order. -/
def Forest.subtrees : List (Node β) → List (Node β)
  | [] => []
  | head :: tail => head.subtrees ++ Forest.subtrees tail
end

theorem Node.subtrees_eq (node : Node β) :
    node.subtrees = node :: Forest.subtrees node.subEvents := by
  cases node
  rw [subtrees]

theorem Forest.subtrees_eq_flatMap (forest : Forest β) :
    subtrees forest = forest.flatMap Node.subtrees := by
  induction forest with
  | nil => rfl
  | cons head tail induction => rw [subtrees, induction, List.flatMap_cons]

@[simp] theorem Forest.subtrees_append (left right : Forest β) :
    subtrees (left ++ right) = subtrees left ++ subtrees right := by
  rw [subtrees_eq_flatMap, subtrees_eq_flatMap, subtrees_eq_flatMap, List.flatMap_append]

@[simp] theorem Forest.subtrees_singleton (node : Node β) : subtrees [node] = node.subtrees := by
  rw [subtrees_eq_flatMap, List.flatMap_singleton]

theorem Forest.mem_subtrees {forest : Forest β} {tree : Node β} :
    tree ∈ subtrees forest ↔ ∃ node ∈ forest, tree ∈ node.subtrees := by
  rw [subtrees_eq_flatMap, List.mem_flatMap]

theorem Node.mem_subtrees_self (node : Node β) : node ∈ node.subtrees := by
  rw [subtrees_eq]
  exact List.mem_cons_self

theorem Forest.mem_subtrees_of_mem {forest : Forest β} {node : Node β} (isNode : node ∈ forest) :
    node ∈ subtrees forest :=
  mem_subtrees.mpr ⟨node, isNode, node.mem_subtrees_self⟩

mutual
theorem Node.map_event_subtrees : ∀ node : Node β,
    node.subtrees.map Node.event = node.members
  | ⟨event, subEvents⟩ => by
      rw [Node.subtrees, Node.members, List.map_cons, Forest.map_event_subtrees]

/-- The events of a forest are the top events of the trees in it. -/
theorem Forest.map_event_subtrees : ∀ forest : List (Node β),
    (Forest.subtrees forest).map Node.event = Forest.members forest
  | [] => rfl
  | head :: tail => by
      rw [Forest.subtrees, Forest.members, List.map_append, head.map_event_subtrees,
        Forest.map_event_subtrees tail]
end

theorem Forest.map_id_subtrees (forest : Forest β) :
    (subtrees forest).map Node.id = ids forest := by
  rw [ids_eq_map_members, ← map_event_subtrees, List.map_map]
  rfl

theorem Node.map_id_subtrees (node : Node β) : node.subtrees.map Node.id = node.ids := by
  rw [ids_eq_map_members, ← map_event_subtrees, List.map_map]
  rfl

mutual
theorem Node.map_fst_walk : ∀ (node : Node β) (depth : Nat),
    (node.walk depth).map Prod.fst = node.subtrees
  | ⟨event, subEvents⟩, depth => by
      rw [Node.walk, List.map_cons, Forest.map_fst_walkFrom subEvents, Node.subtrees]

/-- The nodes that are visited are the trees of the forest. -/
theorem Forest.map_fst_walkFrom : ∀ (forest : List (Node β)) (depth : Nat),
    (Forest.walkFrom depth forest).map Prod.fst = Forest.subtrees forest
  | [], _ => rfl
  | head :: tail, depth => by
      rw [Forest.walkFrom, List.map_append, head.map_fst_walk, Forest.map_fst_walkFrom tail,
        Forest.subtrees]
end

theorem Forest.map_id_walk (forest : Forest β) :
    (walk forest).map (fun visit => visit.1.id) = ids forest := by
  rw [← map_id_subtrees, ← map_fst_walkFrom forest 0, List.map_map]
  rfl

theorem Forest.map_id_visits (forest : Forest β) :
    (visits forest).map (fun visit => visit.1.id) = ids forest := by
  rw [visits_eq_walk, map_id_walk]

theorem Forest.mem_ids_of_subtrees {forest : Forest β} {tree : Node β}
    (isTree : tree ∈ subtrees forest) : tree.id ∈ ids forest := by
  rw [← map_id_subtrees]
  exact List.mem_map_of_mem isTree

theorem Node.mem_ids_of_subtrees {node tree : Node β} (isTree : tree ∈ node.subtrees) :
    tree.id ∈ node.ids := by
  rw [← map_id_subtrees]
  exact List.mem_map_of_mem isTree

theorem Node.mem_ids_below {node : Node β} {id : NodeId}
    (isBelow : id ∈ Forest.ids node.subEvents) : id ∈ node.ids := by
  rw [ids_eq_map_members, members_eq, List.map_cons, ← Forest.ids_eq_map_members]
  exact List.mem_cons_of_mem _ isBelow

theorem Forest.exists_subtree {forest : Forest β} {id : NodeId} (isId : id ∈ ids forest) :
    ∃ tree ∈ subtrees forest, tree.id = id := by
  rw [← map_id_subtrees] at isId
  exact List.mem_map.mp isId

mutual
theorem Node.subtrees_sublist : ∀ {node tree : Node β}, tree ∈ node.subtrees →
    tree.subtrees.Sublist node.subtrees
  | ⟨event, subEvents⟩, tree, isTree => by
      rw [Node.subtrees_eq ⟨event, subEvents⟩] at isTree ⊢
      rcases List.mem_cons.mp isTree with rfl | isBelow
      · rw [Node.subtrees_eq]
      · exact (Forest.subtrees_sublist isBelow).cons _

/-- The trees in a tree of a forest are in the forest. -/
theorem Forest.subtrees_sublist : ∀ {forest : List (Node β)} {tree : Node β},
    tree ∈ Forest.subtrees forest → tree.subtrees.Sublist (Forest.subtrees forest)
  | [], _, isTree => nomatch isTree
  | head :: tail, tree, isTree => by
      rw [Forest.subtrees] at isTree ⊢
      rcases List.mem_append.mp isTree with isHead | isTail
      · exact (Node.subtrees_sublist isHead).trans (List.sublist_append_left _ _)
      · exact (Forest.subtrees_sublist isTail).trans (List.sublist_append_right _ _)
end

theorem Node.subtrees_subset {node tree : Node β} (isTree : tree ∈ node.subtrees) :
    tree.subtrees ⊆ node.subtrees :=
  (subtrees_sublist isTree).subset

theorem Forest.subtrees_subset {forest : Forest β} {tree : Node β}
    (isTree : tree ∈ subtrees forest) : tree.subtrees ⊆ subtrees forest :=
  (subtrees_sublist isTree).subset

theorem Forest.ids_sublist {forest : Forest β} {tree : Node β} (isTree : tree ∈ subtrees forest) :
    tree.ids.Sublist (ids forest) := by
  rw [← map_id_subtrees, ← Node.map_id_subtrees]
  exact (subtrees_sublist isTree).map _

theorem Node.ids_subset {node tree : Node β} (isTree : tree ∈ node.subtrees) :
    tree.ids ⊆ node.ids := by
  rw [← map_id_subtrees, ← map_id_subtrees]
  exact List.map_subset _ (subtrees_subset isTree)

theorem Forest.ids_subset {forest : Forest β} {tree : Node β} (isTree : tree ∈ subtrees forest) :
    tree.ids ⊆ ids forest :=
  (ids_sublist isTree).subset

/-- Trees that are all in a forest have no other ids than the forest. -/
theorem Forest.ids_subset_of_forall {forest trees : Forest β}
    (inside : ∀ tree ∈ trees, tree ∈ subtrees forest) : ids trees ⊆ ids forest := by
  intro id isId
  rcases exists_subtree isId with ⟨tree, isTree, rfl⟩
  rcases mem_subtrees.mp isTree with ⟨top, isTop, isBelow⟩
  exact mem_ids_of_subtrees (subtrees_subset (inside top isTop) isBelow)

theorem Node.mem_subtrees_atPlace? {old : Node β} : ∀ (place : Place) (node : Node β),
    node.atPlace? place = some old → old ∈ node.subtrees
  | [], node, found => by
      cases found
      exact mem_subtrees_self old
  | position :: rest, node, found => by
      rcases exists_below_of_atPlace? found with ⟨child, isChild, below⟩
      rw [subtrees_eq]
      exact List.mem_cons_of_mem _ (Forest.mem_subtrees.mpr
        ⟨child, List.mem_of_getElem? isChild, mem_subtrees_atPlace? rest child below⟩)

/-- The tree at a place of a forest is in the forest. -/
theorem Forest.mem_subtrees_atPlace? {forest : Forest β} {place : Place} {old : Node β}
    (found : Forest.atPlace? place forest = some old) : old ∈ subtrees forest := by
  rcases exists_of_atPlace? found with ⟨position, rest, node, rfl, isNode, below⟩
  exact mem_subtrees.mpr ⟨node, List.mem_of_getElem? isNode,
    Node.mem_subtrees_atPlace? rest node below⟩

/-- When no two nodes have the same id, a tree is known by the id of its top. -/
theorem Forest.eq_of_id_eq {forest : Forest β} (once : (ids forest).Nodup) {left right : Node β}
    (isLeft : left ∈ subtrees forest) (isRight : right ∈ subtrees forest)
    (same : left.id = right.id) : left = right := by
  rw [← map_id_subtrees] at once
  exact List.inj_on_of_nodup_map once isLeft isRight same

/-! ## What holds of every tree -/

section

variable {Holds : Node β → Prop} {old new : Node β}

/-- Something holds of every tree in a forest. -/
def Forest.Throughout (Holds : Node β → Prop) (forest : Forest β) : Prop :=
  ∀ tree ∈ subtrees forest, Holds tree

theorem Forest.throughout_nil : Throughout Holds ([] : Forest β) := fun _ isTree => nomatch isTree

theorem Forest.throughout_append {left right : Forest β} :
    Throughout Holds (left ++ right) ↔ Throughout Holds left ∧ Throughout Holds right := by
  rw [Throughout, subtrees_append, List.forall_mem_append]
  rfl

theorem Forest.throughout_singleton {node : Node β} :
    Throughout Holds [node] ↔ Holds node ∧ Throughout Holds node.subEvents := by
  rw [Throughout, subtrees_singleton, Node.subtrees_eq, List.forall_mem_cons]
  rfl

theorem Forest.throughout_cons {head : Node β} {tail : Forest β} :
    Throughout Holds (head :: tail) ↔ Throughout Holds [head] ∧ Throughout Holds tail :=
  @throughout_append _ _ [head] tail

theorem Forest.throughout_iff_forall {forest : Forest β} :
    Throughout Holds forest ↔ ∀ node ∈ forest, Throughout Holds [node] := by
  induction forest with
  | nil => exact ⟨fun _ _ isNode => (nomatch isNode), fun _ => throughout_nil⟩
  | cons head tail induction => rw [throughout_cons, induction, List.forall_mem_cons]

theorem Forest.Throughout.subtree {forest : Forest β} (throughout : Throughout Holds forest)
    {tree : Node β} (isTree : tree ∈ subtrees forest) : Throughout Holds [tree] := by
  intro below isBelow
  rw [subtrees_singleton] at isBelow
  exact throughout below (subtrees_subset isTree isBelow)

theorem Forest.Throughout.mono {forest : Forest β} (throughout : Throughout Holds forest)
    {others : Forest β} (isMember : ∀ node ∈ others, node ∈ forest) : Throughout Holds others :=
  throughout_iff_forall.mpr fun node isNode =>
    throughout_iff_forall.mp throughout node (isMember node isNode)

theorem Forest.Throughout.modify {forest : Forest β} (throughout : Throughout Holds forest)
    {position : Nat} {node : Node β} (found : forest[position]? = some node)
    {change : Node β → Node β} (ofChanged : Throughout Holds [change node]) :
    Throughout Holds (forest.modify position change) := by
  rw [throughout_iff_forall] at throughout ⊢
  intro other isOther
  rcases List.mem_iff_getElem?.mp isOther with ⟨index, isIndex⟩
  rw [List.getElem?_modify, Option.map_eq_map, Option.map_eq_some_iff] at isIndex
  rcases isIndex with ⟨original, isOriginal, rfl⟩
  split
  · next same =>
      rw [← same, found] at isOriginal
      cases isOriginal
      exact ofChanged
  · exact throughout original (List.mem_of_getElem? isOriginal)

/-- What holds throughout a tree and throughout another that is put at a place in it holds
throughout the result, when the trees around the place may get other sub-events. -/
theorem Node.throughout_modifyAt
    (around : ∀ (tree : Node β) (others : Forest β), old.id ∈ Forest.ids tree.subEvents →
      Holds tree → Holds { tree with subEvents := others })
    (ofNew : Forest.Throughout Holds [new]) : ∀ (place : Place) (node : Node β),
      node.atPlace? place = some old → Forest.Throughout Holds [node] →
        Forest.Throughout Holds [node.modifyAt (fun _ => new) place]
  | [], _, _, _ => ofNew
  | position :: rest, ⟨event, subEvents⟩, found, throughout => by
      rcases exists_below_of_atPlace? found with ⟨child, isChild, below⟩
      have isMember := List.mem_of_getElem? isChild
      have parts := Forest.throughout_singleton.mp throughout
      have isInside : old.id ∈ Forest.ids subEvents := by
        rw [Forest.ids_eq_map_members]
        exact List.mem_map_of_mem
          (Forest.members_subset isMember (mem_members_atPlace? rest child below))
      rw [modifyAt, Forest.throughout_singleton]
      refine ⟨around ⟨event, subEvents⟩ _ isInside parts.1, parts.2.modify isChild ?_⟩
      exact throughout_modifyAt around ofNew rest child below
        (Forest.throughout_iff_forall.mp parts.2 child isMember)

theorem Forest.throughout_modifyAt
    (around : ∀ (tree : Node β) (others : Forest β), old.id ∈ Forest.ids tree.subEvents →
      Holds tree → Holds { tree with subEvents := others })
    (ofNew : Throughout Holds [new]) {place : Place} {forest : Forest β}
    (found : Forest.atPlace? place forest = some old) (throughout : Throughout Holds forest) :
    Throughout Holds (Forest.modifyAt (fun _ => new) place forest) := by
  rcases exists_of_atPlace? found with ⟨position, rest, node, rfl, isNode, below⟩
  apply throughout.modify isNode
  exact Node.throughout_modifyAt around ofNew rest node below
    (throughout_iff_forall.mp throughout node (List.mem_of_getElem? isNode))

end

end EventSheet
