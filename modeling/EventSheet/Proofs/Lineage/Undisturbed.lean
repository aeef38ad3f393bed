import EventSheet.Proofs.Lineage.Frame
import EventSheet.Proofs.Lineage.Session
namespace EventSheet

/-! # Trees that are left alone

A tree stays exactly what it is, with its samples, while nothing is done to a node of it: none of
them is altered, gets or loses sub-events, is published for or is destroyed. Meanwhile it may be
moved, and whatever else there is may change. -/

variable {β : Type}

/-- If the node has an id of a tree, it is a node of the tree. -/
def Node.StandsIn (tree node : Node β) : Prop := node.id ∈ tree.ids → node ∈ tree.subtrees

/-- What is new has no id of the tree, and what is reached is neither in it nor around it. -/
theorem Node.tends_standsIn [EventKind β] {tree : Node β} {first : NodeId}
    (made : ∀ id ∈ tree.ids, id < first) : Tends tree.StandsIn first (· ∉ tree.ids) := by
  apply Tends.of_new
  · intro node isNew isId
    exact absurd isNew (Nat.not_le_of_lt (made _ isId))
  · exact fun _ _ isOther _ isId => absurd isId isOther
  · intro node others id isAround isInside standsIn isId
    have inside := Node.ids_subset (standsIn isId) (Node.mem_ids_below isInside)
    exact absurd inside isAround

namespace Session

open Workspace

variable [Behavior β] {session : Session β}

/-- The node that is published for. -/
def published? (session : Session β) : Operation β → Option NodeId
  | .publish name _ => session.handles.lookup name
  | _ => none

/-- The nodes that something is done to: the one that is changed or gets other sub-events, the one
that is published for, and those that are destroyed. -/
def touched (session : Session β) (operation : Operation β) : List NodeId :=
  (operation.edited? session.workspace).toList ++ (session.published? operation).toList ++
    (operation.account session.workspace).destroyed.map Prod.fst

/-- No pass is made, and nothing is done to the nodes of these ids. -/
def LeavesAlone (ids : List NodeId) : Session β → List (Operation β) → Prop
  | _, [] => True
  | session, operation :: rest =>
      operation.isPass = false ∧ (∀ id ∈ session.touched operation, id ∉ ids) ∧
        LeavesAlone ids (session.perform operation) rest

/-- From one session to a later one a tree stays what it is. -/
structure Stays (before after : Session β) (tree : Node β) : Prop where
  isTree : tree ∈ Forest.subtrees after.workspace.nodes
  alive : ∀ id ∈ tree.ids, after.population.isAlive id = true
  sample : ∀ id ∈ tree.ids, after.population.sample id = before.population.sample id

/-! ## One thing done -/

/-- Handles and samples have no part in what is where. -/
theorem nodes_perform (session : Session β) (operation : Operation β) :
    (session.perform operation).workspace.nodes = (operation.edit session.workspace).2.nodes := by
  cases operation with
  | takeHandle | takeOriginal | copyHandle =>
      rw [perform, workspace_keepHandle]
      rfl
  | publish name sample =>
      rw [perform, publish]
      cases session.handles.lookup name <;> rfl
  | _ => rfl

omit [Behavior β] in
theorem tended_of_throughout {Holds : Node β → Prop} (kept : session.WellKept)
    (throughout : Forest.Throughout Holds session.workspace.nodes) :
    session.workspace.Tended Holds session.population.nextId := by
  rw [Workspace.nodes, Forest.throughout_append] at throughout
  refine ⟨kept.distinct, Nat.le_refl _, ?_, ?_⟩
  · intro entry isEntry
    apply throughout.1.mono
    exact fun node isNode => List.mem_flatMap.mpr ⟨entry, isEntry, isNode⟩
  · intro entry isEntry
    exact Forest.throughout_iff_forall.mp throughout.2 _ (List.mem_map_of_mem isEntry)

omit [Behavior β] in
theorem tended_subtrees (kept : session.WellKept) :
    session.workspace.Tended (· ∈ Forest.subtrees session.workspace.nodes)
      session.population.nextId :=
  tended_of_throughout kept fun _ isTree => isTree

omit [Behavior β] in
/-- No id stands for two nodes of a forest. -/
theorem WellKept.nodup_ids_forestAt? (kept : session.WellKept) {address : Address}
    {forest : Forest β} (found : session.workspace.forestAt? address = some forest) :
    (Forest.ids forest).Nodup := by
  unfold Workspace.forestAt? at found
  split at found
  · rcases List.lookup_eq_some_iff.mp found with ⟨before, behind, split, _⟩
    have once := kept.nodup_ids
    rw [ids, Workspace.nodes, split, List.flatMap_append, List.flatMap_cons] at once
    simp only [Forest.ids_append] at once
    exact (List.nodup_append.mp (List.nodup_append.mp (List.nodup_append.mp once).1).2.1).1
  · rcases Option.map_eq_some_iff.mp found with ⟨node, isNode, rfl⟩
    have isInside := (tended_subtrees kept).nodeAt? isNode node
      (Forest.mem_subtrees_of_mem List.mem_cons_self)
    have once := kept.nodup_ids.sublist (Forest.ids_sublist isInside)
    rcases node with ⟨event, subEvents⟩
    exact once.of_cons

/-- What tends to hold of every tree in a session does so after an operation on it. -/
theorem throughout_perform {Holds : Node β → Prop} {reached : NodeId → Prop}
    (kept : session.WellKept) (tends : Tends Holds session.population.nextId reached)
    (throughout : Forest.Throughout Holds session.workspace.nodes) {operation : Operation β}
    (noPass : operation.isPass = false)
    (areReached : ∀ id ∈ operation.edited? session.workspace, reached id)
    (alters : ∀ address behavior disabled folded,
      operation = .alter address behavior disabled folded →
      ∀ node, session.workspace.nodeAt? address = some node → Holds node →
        Holds (node.mapEvent fun event => { event with behavior, disabled, folded })) :
    Forest.Throughout Holds (session.perform operation).workspace.nodes := by
  rw [nodes_perform]
  exact (tends.edit (tended_of_throughout kept throughout) noPass areReached alters).throughout

/-- A tree stays where nothing is done to its nodes. -/
theorem mem_subtrees_perform (keeps : Behavior.KeepsAccounts β) (kept : session.WellKept)
    {tree : Node β} (isTree : tree ∈ Forest.subtrees session.workspace.nodes)
    {operation : Operation β} (noPass : operation.isPass = false)
    (alone : ∀ id ∈ session.touched operation, id ∉ tree.ids) :
    tree ∈ Forest.subtrees (session.perform operation).workspace.nodes := by
  have once := kept.nodup_ids
  have made : ∀ id ∈ tree.ids, id < session.population.nextId :=
    fun _ isId => kept.lt_nextId (Forest.ids_subset isTree isId)
  have edited : ∀ id ∈ operation.edited? session.workspace, id ∉ tree.ids := by
    intro id isEdited
    apply alone
    exact List.mem_append_left _ (List.mem_append_left _ (Option.mem_toList.mpr isEdited))
  have after : Forest.Throughout tree.StandsIn (session.perform operation).workspace.nodes := by
    apply throughout_perform kept (Node.tends_standsIn made) ?_ noPass edited
    · rintro address behavior disabled folded rfl node found _ isId
      have isEdited : node.id ∉ tree.ids := edited _ (Option.mem_map_of_mem _ found)
      exact absurd isId isEdited
    · intro node isNode isId
      rw [← Node.map_id_subtrees] at isId
      rcases List.mem_map.mp isId with ⟨other, isOther, same⟩
      rwa [← Forest.eq_of_id_eq once (Forest.subtrees_subset isTree isOther) isNode same]
  -- the node that has the id of the tree afterwards is the tree
  have isNode : tree.id ∈ session.ids := Forest.mem_ids_of_subtrees isTree
  have isTop : tree.id ∈ tree.ids := Node.mem_ids_of_subtrees tree.mem_subtrees_self
  have alive := (isAlive_perform keeps kept noPass tree.id).mpr
    ⟨.inl isNode, fun gone => alone _ (List.mem_append_right _ gone) isTop⟩
  rw [(kept.perform keeps operation).isAlive_iff] at alive
  rcases Forest.exists_subtree alive with ⟨node, isAfter, same⟩
  have isOfTree := after node isAfter (same ▸ isTop)
  rwa [← Forest.eq_of_id_eq once (Forest.subtrees_subset isTree isOfTree) isTree same]

/-- Only publishing for a node changes its sample. -/
theorem sample_perform {operation : Operation β} (noPass : operation.isPass = false)
    {ids : List NodeId} (alone : ∀ id ∈ session.touched operation, id ∉ ids) {id : NodeId}
    (isId : id ∈ ids) (made : id < session.population.nextId) :
    (session.perform operation).population.sample id = session.population.sample id := by
  have continues :
      session.population.Continues (operation.edit session.workspace).2.population := by
    apply (Upkeep.continues session.population).edit (.refl _) operation noPass
      (fun _ _ => trivial) (fun _ _ => trivial)
    rintro ⟨_ | _, _⟩ _ _ _ _ _ _ <;> exact .refl _
  cases operation with
  | takeHandle | takeOriginal | copyHandle =>
      rw [perform, population, workspace_keepHandle, population]
  | publish name sample =>
      rw [perform, publish]
      cases found : session.handles.lookup name with
      | none => rfl
      | some other =>
          have isTouched : other ∈ session.touched (.publish name sample) := by
            apply List.mem_append_left _ (List.mem_append_right _ _)
            exact Option.mem_toList.mpr found
          have different : id ≠ other := by
            rintro rfl
            exact alone id isTouched isId
          exact (Population.sample_publish _ _ _ _).trans (if_neg fun same => different same.1)
  | preprocess | compile => cases noPass
  | _ => exact continues.sample id made

/-- The trees under a name stay what they are where other names are used. -/
theorem sameRoot_perform {operation : Operation β} (noPass : operation.isPass = false)
    {address : Address} (elsewhere : address.root ∉ operation.roots) :
    SameRoot address session.workspace (session.perform operation).workspace := by
  have kept : SameRoot address session.workspace (operation.edit session.workspace).2 := by
    apply (Upkeep.sameRoot address session.workspace).edit (.of_eq rfl rfl) operation noPass _
      (fun _ _ => trivial)
    · rintro other behavior disabled folded rfl node -
      apply sameRoot_withNodeAt
      exact fun equal => elsewhere (List.mem_singleton.mpr equal)
    · exact fun other isRoot equal => elsewhere (equal ▸ isRoot)
  cases operation with
  | takeHandle | takeOriginal | copyHandle =>
      rw [perform, workspace_keepHandle]
      exact .of_eq rfl rfl
  | publish name sample =>
      rw [perform, publish]
      cases session.handles.lookup name <;> exact .of_eq rfl rfl
  | _ => exact kept

/-! ## Many things done -/

omit [Behavior β] in
theorem Stays.refl (kept : session.WellKept) {tree : Node β}
    (isTree : tree ∈ Forest.subtrees session.workspace.nodes) : session.Stays session tree where
  isTree := isTree
  alive := fun id isId => (kept.isAlive_iff id).mpr (Forest.ids_subset isTree isId)
  sample := fun _ _ => rfl

/-- A tree stays what it is as long as it is left alone. -/
theorem stays_foldl (keeps : Behavior.KeepsAccounts β) {tree : Node β} :
    ∀ (later : List (Operation β)) {session : Session β}, session.WellKept →
      tree ∈ Forest.subtrees session.workspace.nodes →
      session.LeavesAlone tree.ids later → session.Stays (later.foldl perform session) tree
  | [], _, kept, isTree, _ => .refl kept isTree
  | operation :: rest, session, kept, isTree, leavesAlone => by
      rcases leavesAlone with ⟨noPass, alone, further⟩
      have stays := stays_foldl keeps rest (kept.perform keeps operation)
        (mem_subtrees_perform keeps kept isTree noPass alone) further
      refine ⟨stays.isTree, stays.alive, ?_⟩
      intro id isId
      have made := kept.lt_nextId (Forest.ids_subset isTree isId)
      exact (stays.sample id isId).trans (sample_perform noPass alone isId made)

theorem sameRoot_foldl (address : Address) : ∀ (later : List (Operation β)) (session : Session β),
    (∀ operation ∈ later, operation.isPass = false ∧ address.root ∉ operation.roots) →
      SameRoot address session.workspace (later.foldl perform session).workspace
  | [], _, _ => .of_eq rfl rfl
  | operation :: rest, session, elsewhere => by
      rw [List.forall_mem_cons] at elsewhere
      exact (sameRoot_perform elsewhere.1.1 elsewhere.1.2).trans
        (sameRoot_foldl address rest _ elsewhere.2)

end Session

end EventSheet
