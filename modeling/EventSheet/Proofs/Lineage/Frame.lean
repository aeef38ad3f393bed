import EventSheet.Proofs.Lineage.Numbering
import EventSheet.Proofs.Lineage.Subtrees
import EventSheet.Proofs.Lineage.Upkeep
namespace EventSheet

/-! # What operations leave alone

Something that holds of every tree in a workspace goes on to hold when it holds of what is new and
of the trees that operations reach. Trees under other names stay as they are, and so do the samples
of all nodes there were. -/

variable {β : Type}

/-! ## What holds of every tree -/

/-- Something holds of every tree in the workspace, whose next id is `first` or a later one. -/
structure Workspace.Tended (Holds : Node β → Prop) (first : NodeId) (workspace : Workspace β) :
    Prop where
  distinct : workspace.Distinct
  first_le : first ≤ workspace.population.nextId
  sheets : ∀ entry ∈ workspace.sheets, Forest.Throughout Holds entry.2
  held : ∀ entry ∈ workspace.held, Forest.Throughout Holds [entry.2]

/-- Something holds of the trees that are made when `first` is the next id or was so earlier, and
goes on to hold of a tree when nodes that are `reached` get other sub-events. -/
structure Tends [EventKind β] (Holds : Node β → Prop) (first : NodeId) (reached : NodeId → Prop) :
    Prop where
  created : ∀ id (behavior : β) (children : Forest β), first ≤ id →
    (EventKind.ownsSubEvents behavior = false → children = []) →
    Holds { event := { id, behavior }, subEvents := children }
  restored : ∀ (registry : Registry β) (snapshot : Snapshot) population forest,
    first ≤ population.nextId → (snapshot.restore registry population).1 = .ok forest →
    Forest.Throughout Holds forest
  copied : ∀ link (forest : Forest β) population, first ≤ population.nextId →
    Forest.Throughout Holds forest →
    Forest.Throughout Holds (Forest.copy link forest population).1
  relinked : ∀ (node : Node β) remembered, first ≤ node.id → Holds node →
    Holds (node.mapEvent fun event => { event with remembered })
  regrown : ∀ (node : Node β) others, reached node.id → node.ownsSubEvents = true → Holds node →
    Holds { node with subEvents := others }
  around : ∀ (node : Node β) others id, reached id → id ∈ Forest.ids node.subEvents →
    Holds node → Holds { node with subEvents := others }

namespace Workspace.Tended

variable {Holds : Node β → Prop} {first : NodeId} {workspace : Workspace β}

theorem lookup_sheet (tended : workspace.Tended Holds first) {name : String} {forest : Forest β}
    (found : workspace.sheets.lookup name = some forest) : Forest.Throughout Holds forest := by
  rcases List.lookup_eq_some_iff.mp found with ⟨before, behind, split, _⟩
  exact tended.sheets (name, forest) (split ▸ List.mem_append_right _ List.mem_cons_self)

theorem lookup_held (tended : workspace.Tended Holds first) {name : String} {node : Node β}
    (found : workspace.held.lookup name = some node) : Forest.Throughout Holds [node] := by
  rcases List.lookup_eq_some_iff.mp found with ⟨before, behind, split, _⟩
  exact tended.held (name, node) (split ▸ List.mem_append_right _ List.mem_cons_self)

theorem throughout (tended : workspace.Tended Holds first) :
    Forest.Throughout Holds workspace.nodes := by
  rw [Workspace.nodes, Forest.throughout_append]
  constructor
  · rw [Forest.throughout_iff_forall]
    intro node isNode
    rcases List.mem_flatMap.mp isNode with ⟨entry, isEntry, isMember⟩
    exact Forest.throughout_iff_forall.mp (tended.sheets entry isEntry) node isMember
  · rw [Forest.throughout_iff_forall]
    intro node isNode
    rcases List.mem_map.mp isNode with ⟨entry, isEntry, rfl⟩
    exact tended.held entry isEntry

theorem nodeAt? (tended : workspace.Tended Holds first) {address : Address} {node : Node β}
    (found : workspace.nodeAt? address = some node) : Forest.Throughout Holds [node] := by
  rcases address with ⟨root, place⟩
  cases root with
  | sheet name =>
      rcases Option.bind_eq_some_iff.mp found with ⟨forest, isSheet, isNode⟩
      exact (tended.lookup_sheet isSheet).subtree (Forest.mem_subtrees_atPlace? isNode)
  | held name =>
      rcases Option.bind_eq_some_iff.mp found with ⟨tree, isHeld, isNode⟩
      apply (tended.lookup_held isHeld).subtree
      rw [Forest.subtrees_singleton]
      exact Node.mem_subtrees_atPlace? place tree isNode

theorem forestAt? (tended : workspace.Tended Holds first) {address : Address} {forest : Forest β}
    (found : workspace.forestAt? address = some forest) : Forest.Throughout Holds forest := by
  unfold Workspace.forestAt? at found
  split at found
  · exact tended.lookup_sheet found
  · rw [Option.map_eq_some_iff] at found
    rcases found with ⟨node, isNode, rfl⟩
    exact (Forest.throughout_singleton.mp (tended.nodeAt? isNode)).2

theorem withPopulation (tended : workspace.Tended Holds first) {population : Population}
    (grows : workspace.population.nextId ≤ population.nextId) :
    ({ workspace with population } : Workspace β).Tended Holds first where
  distinct := ⟨tended.distinct.sheets, tended.distinct.held⟩
  first_le := Nat.le_trans tended.first_le grows
  sheets := tended.sheets
  held := tended.held

/-- A node is put where another was found. -/
theorem withNodeAt (tended : workspace.Tended Holds first) {address : Address} {old new : Node β}
    (found : workspace.nodeAt? address = some old)
    (around : ∀ (tree : Node β) (others : Forest β), old.id ∈ Forest.ids tree.subEvents →
      Holds tree → Holds { tree with subEvents := others })
    (ofNew : Forest.Throughout Holds [new]) :
    (workspace.withNodeAt address new).Tended Holds first := by
  rcases address with ⟨root, place⟩
  cases root with
  | sheet name =>
      rcases Option.bind_eq_some_iff.mp found with ⟨forest, isSheet, isNode⟩
      refine ⟨⟨tended.distinct.sheets.change name _, tended.distinct.held⟩, tended.first_le, ?_,
        tended.held⟩
      intro entry isEntry
      have isChanged := (Named.perm_change tended.distinct.sheets isSheet _).mem_iff.mp isEntry
      rcases List.mem_cons.mp isChanged with rfl | isOther
      · exact Forest.throughout_modifyAt around ofNew isNode (tended.lookup_sheet isSheet)
      · exact tended.sheets entry (List.mem_filter.mp isOther).1
  | held name =>
      rcases Option.bind_eq_some_iff.mp found with ⟨tree, isHeld, isNode⟩
      refine ⟨⟨tended.distinct.sheets, tended.distinct.held.change name _⟩, tended.first_le,
        tended.sheets, ?_⟩
      intro entry isEntry
      have isChanged := (Named.perm_change tended.distinct.held isHeld _).mem_iff.mp isEntry
      rcases List.mem_cons.mp isChanged with rfl | isOther
      · exact Node.throughout_modifyAt around ofNew place tree isNode (tended.lookup_held isHeld)
      · exact tended.held entry (List.mem_filter.mp isOther).1

end Workspace.Tended

/-- Whatever holds of what is new and of what is reached is kept up. -/
theorem Tends.upkeep [EventKind β] {Holds : Node β → Prop} {first : NodeId}
    {reached : NodeId → Prop} (tends : Tends Holds first reached) :
    Upkeep (Workspace.Tended Holds first) (fun node => Forest.Throughout Holds [node])
      (fun _ => True) reached where
  retire := by
    intro workspace ids tended
    exact tended.withPopulation (Nat.le_of_eq (Population.nextId_retireAll _ _).symm)
  create := by
    intro workspace behavior tended
    refine ⟨tended.withPopulation ?_, ?_⟩
    · exact Nat.le_of_lt (Nat.lt_of_lt_of_eq (Nat.lt_succ_self _)
        (Population.nextId_enroll _ _).symm)
    · intro children good owns
      rw [Forest.throughout_singleton]
      exact ⟨tends.created _ behavior children tended.first_le owns,
        Forest.throughout_iff_forall.mpr good⟩
  restore := by
    intro workspace registry snapshot tended
    refine ⟨tended.withPopulation ?_, ?_⟩
    · have exchange := snapshot.restore_exchange registry workspace.population
      split at exchange
      · next same =>
          rw [same]
          exact exchange.1.grows
      · next same =>
          rw [same]
          exact exchange.grows
    · intro forest restored
      exact Forest.throughout_iff_forall.mp
        (tends.restored registry snapshot _ forest tended.first_le restored)
  copyNode := by
    intro workspace node remembering tended good
    have copied : Forest.Throughout Holds [(node.clone workspace.population).1] := by
      rw [Node.clone_eq_copy]
      exact tends.copied Event.remembered [node] workspace.population tended.first_le good
    have grows : workspace.population.nextId ≤ (node.clone workspace.population).2.nextId := by
      rw [Node.clone_eq_copy]
      exact (Exchange.copyNode Event.remembered node _).grows
    cases remembering with
    | false => exact ⟨tended.withPopulation grows, copied⟩
    | true =>
        refine ⟨tended.withPopulation grows, ?_⟩
        rw [Forest.throughout_singleton] at copied
        have isNew : first ≤ (node.clone workspace.population).1.id := tended.first_le
        exact Forest.throughout_singleton.mpr
          ⟨tends.relinked _ (some node.id) isNew copied.1, copied.2⟩
  copyForest := by
    intro workspace forest remembering tended good
    rw [Forest.cloned_eq_copy]
    refine ⟨tended.withPopulation (Exchange.copyForest _ forest _).grows, ?_⟩
    exact Forest.throughout_iff_forall.mp (tends.copied _ forest _ tended.first_le
      (Forest.throughout_iff_forall.mpr good))
  below := by
    intro node good child isChild
    rw [Forest.throughout_singleton] at good
    exact Forest.throughout_iff_forall.mp good.2 child isChild
  sheet := by
    intro workspace name forest tended found
    exact Forest.throughout_iff_forall.mp (tended.lookup_sheet found)
  found := by
    intro workspace address node tended found
    exact tended.nodeAt? found
  takeSheet := by
    intro workspace name _ tended
    exact ⟨⟨tended.distinct.sheets.without name, tended.distinct.held⟩, tended.first_le,
      fun entry isEntry => tended.sheets entry (List.mem_filter.mp isEntry).1, tended.held⟩
  takeNode := by
    intro workspace name _ tended
    exact ⟨⟨tended.distinct.sheets, tended.distinct.held.without name⟩, tended.first_le,
      tended.sheets, fun entry isEntry => tended.held entry (List.mem_filter.mp isEntry).1⟩
  putSheet := by
    intro workspace name forest _ tended good
    refine ⟨⟨tended.distinct.sheets.put name forest, tended.distinct.held⟩, tended.first_le, ?_,
      tended.held⟩
    intro entry isEntry
    rcases List.mem_append.mp isEntry with isOther | isNew
    · exact tended.sheets entry (List.mem_filter.mp isOther).1
    · rw [List.mem_singleton.mp isNew]
      exact Forest.throughout_iff_forall.mpr good
  putNode := by
    intro workspace name node _ tended good
    refine ⟨⟨tended.distinct.sheets, tended.distinct.held.put name node⟩, tended.first_le,
      tended.sheets, ?_⟩
    intro entry isEntry
    rcases List.mem_append.mp isEntry with isOther | isNew
    · exact tended.held entry (List.mem_filter.mp isOther).1
    · rw [List.mem_singleton.mp isNew]
      exact good
  changeSheet := by
    intro workspace name forest _ tended good
    have names := tended.distinct.sheets.change name fun _ => forest
    refine ⟨⟨names, tended.distinct.held⟩, tended.first_le, ?_, tended.held⟩
    intro entry isEntry
    rcases List.mem_map.mp isEntry with ⟨old, isOld, rfl⟩
    split
    · exact Forest.throughout_iff_forall.mpr good
    · exact tended.sheets old isOld
  regrow := by
    intro workspace address node others _ tended found isReached owns good
    apply tended.withNodeAt found
    · intro tree changed isInside holds
      exact tends.around tree changed node.id isReached isInside holds
    · have parts := Forest.throughout_singleton.mp (tended.nodeAt? found)
      exact Forest.throughout_singleton.mpr
        ⟨tends.regrown node others isReached owns parts.1, Forest.throughout_iff_forall.mpr good⟩

/-- What holds of every tree before an operation goes on to hold, when it does so of a node that is
altered. -/
theorem Tends.edit [Behavior β] {Holds : Node β → Prop} {first : NodeId} {reached : NodeId → Prop}
    (tends : Tends Holds first reached) {workspace : Workspace β}
    (tended : workspace.Tended Holds first) {operation : Operation β}
    (noPass : operation.isPass = false)
    (areReached : ∀ id ∈ operation.edited? workspace, reached id)
    (alters : ∀ address behavior disabled folded,
      operation = .alter address behavior disabled folded →
      ∀ node, workspace.nodeAt? address = some node → Holds node →
        Holds (node.mapEvent fun event => { event with behavior, disabled, folded })) :
    (operation.edit workspace).2.Tended Holds first := by
  apply tends.upkeep.edit tended operation noPass (fun _ _ => trivial) areReached
  rintro address behavior disabled folded rfl node found
  have isReached : reached node.id := areReached _ (Option.mem_map_of_mem _ found)
  have parts := Forest.throughout_singleton.mp (tended.nodeAt? found)
  apply tended.withNodeAt found
  · exact fun tree others isInside => tends.around tree others node.id isReached isInside
  · have holds := alters address behavior disabled folded rfl node found parts.1
    exact Forest.throughout_singleton.mpr ⟨holds, parts.2⟩

/-- Something that holds of whatever gets a new id. -/
theorem Tends.of_new [EventKind β] {Holds : Node β → Prop} {first : NodeId}
    {reached : NodeId → Prop} (new : ∀ node : Node β, first ≤ node.id → Holds node)
    (regrown : ∀ (node : Node β) others, reached node.id → Holds node →
      Holds { node with subEvents := others })
    (around : ∀ (node : Node β) others id, reached id → id ∈ Forest.ids node.subEvents →
      Holds node → Holds { node with subEvents := others }) :
    Tends Holds first reached where
  created := fun _ _ _ isNew _ => new _ isNew
  restored := by
    intro registry snapshot population forest isLater restored tree isTree
    have isId := Forest.mem_ids_of_subtrees isTree
    rw [Snapshot.ids_of_restore restored, List.mem_range'_1] at isId
    exact new tree (Nat.le_trans isLater isId.1)
  copied := by
    intro link forest population isLater _ tree isTree
    have isId := Forest.mem_ids_of_subtrees isTree
    rw [Forest.ids_copy, List.mem_range'_1] at isId
    exact new tree (Nat.le_trans isLater isId.1)
  relinked := fun _ _ isNew _ => new _ isNew
  regrown := fun node others isReached _ holds => regrown node others isReached holds
  around := around

/-! ## Trees under a name -/

theorem Named.lookup_change_of_ne {α : Type} {name other : String} (edit : α → α)
    (entries : Named α) (different : other ≠ name) :
    (entries.change name edit).lookup other = entries.lookup other := by
  induction entries with
  | nil => rfl
  | cons head tail induction =>
      rcases head with ⟨key, value⟩
      rw [change, List.map_cons, ← change]
      by_cases same : key = name
      · subst same
        rw [if_pos rfl, List.lookup_cons, List.lookup_cons, beq_false_of_ne different]
        exact induction
      · rw [if_neg same, List.lookup_cons, List.lookup_cons, induction]

namespace Workspace

variable {before after workspace : Workspace β} {address : Address}

theorem sameRoot_of_lookup
    (sheets : ∀ name, address.root = .sheet name →
      after.sheets.lookup name = before.sheets.lookup name)
    (held : ∀ name, address.root = .held name → after.held.lookup name = before.held.lookup name) :
    SameRoot address before after := by
  rcases address with ⟨name | name, place⟩
  · exact sheets name rfl
  · exact held name rfl

theorem SameRoot.trans {between : Workspace β} (first : SameRoot address before between)
    (second : SameRoot address between after) : SameRoot address before after := by
  rcases address with ⟨_ | _, place⟩ <;> exact Eq.trans second first

theorem SameRoot.treesAt_eq (same : SameRoot address before after) :
    after.treesAt address.root = before.treesAt address.root := by
  rcases address with ⟨name | name, place⟩
  · exact congrArg (Option.getD · []) same
  · exact congrArg Option.toList same

theorem sameRoot_withNodeAt {other : Address} (different : address.root ≠ other.root)
    (node : Node β) : SameRoot address workspace (workspace.withNodeAt other node) := by
  rcases other with ⟨name | name, place⟩
  · refine sameRoot_of_lookup ?_ fun _ _ => rfl
    intro other isRoot
    exact Named.lookup_change_of_ne _ _ fun equal => different (isRoot.trans (congrArg _ equal))
  · refine sameRoot_of_lookup (fun _ _ => rfl) ?_
    intro other isRoot
    exact Named.lookup_change_of_ne _ _ fun equal => different (isRoot.trans (congrArg _ equal))

end Workspace

/-- The trees under a name stay as they are while other names are used. -/
theorem Upkeep.sameRoot [EventKind β] (address : Address) (before : Workspace β) :
    Upkeep (Workspace.SameRoot address before) (fun _ => True) (address.root ≠ ·)
      (fun _ => True) where
  retire := fun _ _ same => same
  create := fun _ _ same => ⟨same, fun _ _ _ => trivial⟩
  restore := fun _ _ _ same => ⟨same, fun _ _ _ _ => trivial⟩
  copyNode := fun _ _ _ same _ => ⟨same, trivial⟩
  copyForest := fun _ _ _ same _ => ⟨same, fun _ _ => trivial⟩
  below := fun _ _ _ _ => trivial
  sheet := fun _ _ _ _ _ _ _ => trivial
  found := fun _ _ _ _ _ => trivial
  takeSheet := by
    intro workspace name different same
    refine same.trans (Workspace.sameRoot_of_lookup ?_ fun _ _ => rfl)
    intro other isRoot
    exact Named.lookup_without_of_ne _ fun equal => different (isRoot.trans (congrArg _ equal))
  takeNode := by
    intro workspace name different same
    refine same.trans (Workspace.sameRoot_of_lookup (fun _ _ => rfl) ?_)
    intro other isRoot
    exact Named.lookup_without_of_ne _ fun equal => different (isRoot.trans (congrArg _ equal))
  putSheet := by
    intro workspace name forest different same _
    refine same.trans (Workspace.sameRoot_of_lookup ?_ fun _ _ => rfl)
    intro other isRoot
    exact Named.lookup_put_of_ne _ _ fun equal => different (isRoot.trans (congrArg _ equal))
  putNode := by
    intro workspace name node different same _
    refine same.trans (Workspace.sameRoot_of_lookup (fun _ _ => rfl) ?_)
    intro other isRoot
    exact Named.lookup_put_of_ne _ _ fun equal => different (isRoot.trans (congrArg _ equal))
  changeSheet := by
    intro workspace name forest different same _
    refine same.trans (Workspace.sameRoot_of_lookup ?_ fun _ _ => rfl)
    intro other isRoot
    exact Named.lookup_change_of_ne (fun _ => forest) workspace.sheets fun equal =>
      different (isRoot.trans (congrArg _ equal))
  regrow := by
    intro workspace other node others different same _ _ _ _
    exact same.trans (Workspace.sameRoot_withNodeAt different _)

/-! ## Samples -/

/-- Nodes there were keep their samples. -/
theorem Upkeep.continues [EventKind β] (before : Population) :
    Upkeep (fun workspace : Workspace β => before.Continues workspace.population)
      (fun _ => True) (fun _ => True) (fun _ => True) where
  retire := fun _ ids continues => continues.trans (.retireAll _ ids)
  create := fun _ _ continues => ⟨continues.trans (.enroll _ _), fun _ _ _ => trivial⟩
  restore := fun _ registry snapshot continues =>
    ⟨continues.trans (.restore registry snapshot _), fun _ _ _ _ => trivial⟩
  copyNode := by
    intro workspace node remembering continues _
    refine ⟨continues.trans ?_, trivial⟩
    have copied := Population.Continues.copyNode Event.remembered node workspace.population
    rw [← Node.clone_eq_copy] at copied
    cases remembering <;> exact copied
  copyForest := by
    intro workspace forest remembering continues _
    refine ⟨continues.trans ?_, fun _ _ => trivial⟩
    rw [Forest.cloned_eq_copy]
    exact .copyForest _ forest _
  below := fun _ _ _ _ => trivial
  sheet := fun _ _ _ _ _ _ _ => trivial
  found := fun _ _ _ _ _ => trivial
  takeSheet := fun _ _ _ continues => continues
  takeNode := fun _ _ _ continues => continues
  putSheet := fun _ _ _ _ continues _ => continues
  putNode := fun _ _ _ _ continues _ => continues
  changeSheet := fun _ _ _ _ continues _ => continues
  regrow := by
    rintro _ ⟨_ | _, _⟩ _ _ _ continues _ _ _ _ <;> exact continues

end EventSheet
