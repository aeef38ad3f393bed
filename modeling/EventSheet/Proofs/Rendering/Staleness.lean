import EventSheet.Proofs.Lineage.Undisturbed
import EventSheet.Proofs.Rendering.Measures
namespace EventSheet

/-! # No height told is stale

An editor shows the events of a session with a cache of their heights. When a node does something
else than before, its height has to be invalidated before it is measured again; then every height
told is that of the node as it is, whatever is moved, folded, cloned or destroyed meanwhile. -/

variable {β : Type}

/-! ## Events that were rewritten -/

namespace Session

/-- The node of the id is there before and after, and does something else than it did. -/
def Rewritten (before after : Session β) (id : NodeId) : Prop :=
  ∃ old ∈ before.members, ∃ new ∈ after.members,
    old.id = id ∧ new.id = id ∧ new.behavior ≠ old.behavior

variable {session : Session β}

theorem WellKept.eq_of_id_eq (kept : session.WellKept) {left right : Event β}
    (isLeft : left ∈ session.members) (isRight : right ∈ session.members)
    (same : left.id = right.id) : left = right := by
  have once := kept.nodup_ids
  rw [ids, Forest.ids_eq_map_members] at once
  exact List.inj_on_of_nodup_map once isLeft isRight same

theorem WellKept.made (kept : session.WellKept) {event : Event β}
    (isMember : event ∈ session.members) : event.id < session.population.nextId := by
  apply kept.lt_nextId
  rw [ids, Forest.ids_eq_map_members]
  exact List.mem_map_of_mem isMember

theorem mem_members_of_subtrees {node : Node β}
    (isTree : node ∈ Forest.subtrees session.workspace.nodes) : node.event ∈ session.members := by
  rw [members, ← Forest.map_event_subtrees]
  exact List.mem_map_of_mem isTree

/-- A node of an id that was given out before was there before. -/
theorem Lasts.exists_old {before after : Session β} (lasts : before.Lasts after) {new : Event β}
    (isMember : new ∈ after.members) (made : new.id < before.population.nextId) :
    ∃ old ∈ before.members, old.id = new.id := by
  rcases lasts.known new.bond (List.mem_map_of_mem isMember) with wasBond | isNew
  · rcases List.mem_map.mp wasBond with ⟨old, isOld, same⟩
    exact ⟨old, isOld, congrArg Prod.fst same⟩
  · exact absurd isNew (Nat.not_le_of_lt made)

/-- The operation sets what the node of the id does. -/
def Alters (session : Session β) (operation : Operation β) (id : NodeId) : Prop :=
  ∃ address behavior disabled folded node,
    operation = .alter address behavior disabled folded ∧
      session.workspace.nodeAt? address = some node ∧ node.id = id

/-- The node does what it did in a session before, unless the operation altered it. -/
def Explains (session : Session β) (operation : Operation β) (node : Node β) : Prop :=
  ∀ old ∈ session.members, old.id = node.id →
    session.Alters operation node.id ∨ node.behavior = old.behavior

theorem tends_explains [EventKind β] (kept : session.WellKept) (operation : Operation β) :
    Tends (session.Explains operation) session.population.nextId fun _ => True := by
  apply Tends.of_new
  · intro node isNew old isOld same
    exact absurd isNew (Nat.not_le_of_lt (same ▸ kept.made isOld))
  · exact fun _ _ _ explains => explains
  · exact fun _ _ _ _ _ explains => explains

/-- Apart from passes, only altering a node rewrites its event. -/
theorem alters_of_rewritten [Behavior β] (kept : session.WellKept) {operation : Operation β}
    (noPass : operation.isPass = false) {id : NodeId}
    (rewritten : session.Rewritten (session.perform operation) id) :
    session.Alters operation id := by
  have after : Forest.Throughout (session.Explains operation)
      (session.perform operation).workspace.nodes := by
    apply throughout_perform kept (tends_explains kept operation) ?_ noPass fun _ _ => trivial
    · intro address behavior disabled folded isAlter node found _ _ _ _
      exact .inl ⟨address, behavior, disabled, folded, node, isAlter, found, rfl⟩
    · intro node isTree old isOld same
      rw [kept.eq_of_id_eq isOld (mem_members_of_subtrees isTree) same]
      exact .inr rfl
  rcases rewritten with ⟨old, isOld, new, isNew, rfl, sameId, different⟩
  rw [members, ← Forest.map_event_subtrees] at isNew
  rcases List.mem_map.mp isNew with ⟨node, isTree, rfl⟩
  rcases after node isTree old isOld sameId.symm with alters | same
  · rwa [← sameId]
  · exact absurd same different

end Session

namespace Rendering

/-! ## Editors -/

/-- What is done in an editor: something to the nodes or to the cache. -/
inductive Gesture (β : Type) where
  | operate (operation : Operation β)
  /-- Ask for the height of the node at an address. -/
  | measure (address : Address) (width : UInt32)
  | measureForest (address : Address) (width : UInt32)
  | invalidate (id : NodeId)
  | forget (id : NodeId)
  | retainLive (forest : Forest β)

/-- The entry of a node is marked or dropped. -/
def Gesture.Drops (id : NodeId) : Gesture β → Prop
  | .invalidate other | .forget other => other = id
  | .retainLive forest => id ∉ Forest.ids forest
  | _ => False

/-- A session and the heights of its nodes. -/
structure Editor (β : Type) where
  session : Session β := {}
  cache : Cache := {}
  /-- The nodes that were rewritten since their entries were last marked or dropped. -/
  edited : NodeId → Prop := fun _ => False

namespace Editor

variable [Behavior β]

def act (editor : Editor β) : Gesture β → Editor β
  | .operate operation =>
      { editor with
        session := editor.session.perform operation
        edited := fun id => editor.edited id ∨
          editor.session.Rewritten (editor.session.perform operation) id }
  | .measure address width =>
      match editor.session.workspace.nodeAt? address with
      | some node => { editor with cache := (Cache.height node width editor.cache).2 }
      | none => editor
  | .measureForest address width =>
      match editor.session.workspace.forestAt? address with
      | some forest => { editor with cache := (Cache.forestHeight width forest editor.cache).2 }
      | none => editor
  | .invalidate id =>
      { editor with
        cache := editor.cache.invalidate id
        edited := fun other => editor.edited other ∧ other ≠ id }
  | .forget id =>
      { editor with
        cache := editor.cache.forget id
        edited := fun other => editor.edited other ∧ other ≠ id }
  | .retainLive forest =>
      { editor with
        cache := editor.cache.retainLive forest
        edited := fun id => editor.edited id ∧ id ∈ Forest.ids forest }

/-- Entries are of nodes that were made, and those that are fresh tell heights as they are. -/
structure Truthful (editor : Editor β) : Prop where
  kept : editor.session.WellKept
  made : ∀ id entry, editor.cache.find? id = some entry → id < editor.session.population.nextId
  tells : ∀ event ∈ editor.session.members, ¬editor.edited event.id → editor.cache.Tells event

namespace Truthful

variable {editor : Editor β}

/-- Nodes displayed at an address are of the session. -/
theorem mem_members_of_displayed (truthful : editor.Truthful) {address : Address}
    {forest : Forest β} (found : editor.session.workspace.forestAt? address = some forest) :
    ∀ node ∈ Forest.displayed forest, node.event ∈ editor.session.members := by
  intro node isDisplayed
  have tended := Session.tended_subtrees truthful.kept
  exact Session.mem_members_of_subtrees
    (tended.forestAt? found node ((Forest.displayed_sublist forest).subset isDisplayed))

theorem measure (truthful : editor.Truthful) {after : Cache} {ids : List NodeId}
    (measured : Cache.Measured ids editor.cache after)
    (inside : ∀ id ∈ ids, id < editor.session.population.nextId)
    (tells : ∀ event ∈ editor.session.members, ¬editor.edited event.id → after.Tells event) :
    ({ editor with cache := after } : Editor β).Truthful where
  kept := truthful.kept
  made := by
    intro id entry found
    rcases measured id with same | ⟨isOne, _⟩
    · exact truthful.made id entry (same.symm.trans found)
    · exact inside id isOne
  tells := tells

theorem operate (keeps : Behavior.KeepsAccounts β) (truthful : editor.Truthful)
    (operation : Operation β) : (editor.act (.operate operation)).Truthful where
  kept := truthful.kept.perform keeps operation
  made := by
    intro id entry found
    have lasts := Session.lasts_perform keeps truthful.kept operation
    exact Nat.lt_of_lt_of_le (truthful.made id entry found) lasts.grows
  tells := by
    intro new isNew unedited width height fresh
    have lasts := Session.lasts_perform keeps truthful.kept operation
    have made := truthful.made _ _ ((Cache.fresh?_eq_some_iff _ _).mp fresh)
    rcases lasts.exists_old isNew made with ⟨old, isOld, same⟩
    -- the node is as it was when the height was told
    have unchanged : new.behavior = old.behavior := by
      by_contra different
      exact unedited (.inr ⟨old, isOld, new, isNew, same, rfl, different⟩)
    have oldUnedited : ¬editor.edited old.id := fun edited => unedited (.inl (same ▸ edited))
    rw [unchanged]
    exact truthful.tells old isOld oldUnedited width height (same.symm ▸ fresh)

/-- Entries are dropped or marked as stale, but for those that stay as they are. -/
theorem drop (truthful : editor.Truthful) {after : Cache} (stays : NodeId → Prop)
    (others : ∀ id, stays id → after.find? id = editor.cache.find? id)
    (stale : ∀ id entry, ¬stays id → after.find? id = some entry →
      entry.needsUpdate = true ∧ ∃ old, editor.cache.find? id = some old) :
    ({ editor with
      cache := after
      edited := fun id => editor.edited id ∧ stays id } : Editor β).Truthful where
  kept := truthful.kept
  made := by
    intro id entry found
    by_cases isStaying : stays id
    · exact truthful.made id entry ((others id isStaying).symm.trans found)
    · rcases (stale id entry isStaying found).2 with ⟨old, wasEntry⟩
      exact truthful.made id old wasEntry
  tells := by
    intro event isMember unedited width height fresh
    rw [Cache.fresh?_eq_some_iff] at fresh
    by_cases isStaying : stays event.id
    · apply truthful.tells event isMember (fun edited => unedited ⟨edited, isStaying⟩)
      rw [Cache.fresh?_eq_some_iff, ← others _ isStaying, fresh]
    · exact nomatch (stale _ _ isStaying fresh).1

theorem act (keeps : Behavior.KeepsAccounts β) (truthful : editor.Truthful)
    (gesture : Gesture β) : (editor.act gesture).Truthful := by
  cases gesture with
  | operate operation => exact truthful.operate keeps operation
  | measure address width =>
      rw [Editor.act]
      cases found : editor.session.workspace.nodeAt? address with
      | none => exact truthful
      | some node =>
          have isMember := Session.event_mem_members found
          apply truthful.measure (Cache.measured_height node width editor.cache)
          · intro id isNode
            rw [List.mem_singleton.mp isNode]
            exact truthful.kept.made isMember
          · intro event isEvent unedited
            apply (truthful.tells event isEvent unedited).of_height
            exact fun same => congrArg Event.behavior
              (truthful.kept.eq_of_id_eq isEvent isMember same)
  | measureForest address width =>
      rw [Editor.act]
      cases found : editor.session.workspace.forestAt? address with
      | none => exact truthful
      | some forest =>
          have areMembers := truthful.mem_members_of_displayed found
          apply truthful.measure (Cache.measured_forestHeight width forest editor.cache)
          · intro id isNode
            rcases List.mem_map.mp isNode with ⟨node, isDisplayed, rfl⟩
            exact truthful.kept.made (areMembers node isDisplayed)
          · intro event isEvent unedited
            apply (truthful.tells event isEvent unedited).of_forestHeight
            exact fun node isDisplayed same => congrArg Event.behavior
              (truthful.kept.eq_of_id_eq isEvent (areMembers node isDisplayed) same)
  | invalidate dropped =>
      apply truthful.drop (· ≠ dropped)
      · intro id different
        rw [Cache.find?_invalidate, if_neg different]
      · intro id entry same found
        rw [Cache.find?_invalidate, if_pos (not_not.mp same), Option.map_eq_some_iff] at found
        rcases found with ⟨old, wasEntry, rfl⟩
        exact ⟨rfl, old, not_not.mp same ▸ wasEntry⟩
  | forget dropped =>
      apply truthful.drop (· ≠ dropped)
      · intro id different
        rw [Cache.find?_forget, if_neg different]
      · intro id entry same found
        rw [Cache.find?_forget, if_pos (not_not.mp same)] at found
        exact nomatch found
  | retainLive forest =>
      apply truthful.drop (· ∈ Forest.ids forest)
      · intro id isLive
        rw [Cache.find?_retainLive, if_pos isLive]
      · intro id entry isGone found
        rw [Cache.find?_retainLive, if_neg isGone] at found
        exact nomatch found

theorem foldl (keeps : Behavior.KeepsAccounts β) (gestures : List (Gesture β)) :
    ∀ {editor : Editor β}, editor.Truthful → (gestures.foldl Editor.act editor).Truthful := by
  induction gestures with
  | nil => exact fun truthful => truthful
  | cons gesture rest induction => exact fun truthful => induction (truthful.act keeps gesture)

theorem empty : ({} : Editor β).Truthful where
  kept := Session.wellKept_empty
  made := nofun
  tells := fun _ isMember => nomatch isMember

end Truthful

/-! ## Stale and fresh entries -/

variable {editor : Editor β}

theorem needsUpdate_of_drops {id : NodeId} {gesture : Gesture β} (drops : gesture.Drops id) :
    (editor.act gesture).cache.needsUpdate id = true := by
  cases gesture with
  | invalidate other =>
      cases drops
      rw [act, Cache.needsUpdate, Cache.find?_invalidate, if_pos rfl]
      cases editor.cache.find? id <;> rfl
  | forget other =>
      cases drops
      rw [act, Cache.needsUpdate, Cache.find?_forget, if_pos rfl]
  | retainLive forest =>
      rw [act, Cache.needsUpdate, Cache.find?_retainLive, if_neg drops]
  | _ => cases drops

/-- An entry is fresh until it is marked or dropped. -/
theorem needsUpdate_act {id : NodeId} {gesture : Gesture β} (stays : ¬gesture.Drops id)
    (fresh : editor.cache.needsUpdate id = false) :
    (editor.act gesture).cache.needsUpdate id = false := by
  cases gesture with
  | operate operation => exact fresh
  | measure address width =>
      rw [act]
      cases editor.session.workspace.nodeAt? address with
      | none => exact fresh
      | some node => exact (Cache.measured_height node width editor.cache).needsUpdate fresh
  | measureForest address width =>
      rw [act]
      cases editor.session.workspace.forestAt? address with
      | none => exact fresh
      | some forest =>
          exact (Cache.measured_forestHeight width forest editor.cache).needsUpdate fresh
  | invalidate other =>
      rw [act, Cache.needsUpdate, Cache.find?_invalidate, if_neg (Ne.symm stays)]
      exact fresh
  | forget other =>
      rw [act, Cache.needsUpdate, Cache.find?_forget, if_neg (Ne.symm stays)]
      exact fresh
  | retainLive forest =>
      rw [act, Cache.needsUpdate, Cache.find?_retainLive, if_pos (not_not.mp stays)]
      exact fresh

theorem needsUpdate_foldl {id : NodeId} : ∀ (gestures : List (Gesture β)) {editor : Editor β},
    (∀ gesture ∈ gestures, ¬gesture.Drops id) → editor.cache.needsUpdate id = false →
      (gestures.foldl act editor).cache.needsUpdate id = false
  | [], _, _, fresh => fresh
  | gesture :: rest, _, stay, fresh => by
      rw [List.forall_mem_cons] at stay
      exact needsUpdate_foldl rest stay.2 (needsUpdate_act stay.1 fresh)

/-- The heights told are those of the nodes as they are, each until its node is rewritten without
being marked or dropped from the cache. -/
structure Exact (editor : Editor β) : Prop where
  height : ∀ address node width, editor.session.workspace.nodeAt? address = some node →
    ¬editor.edited node.id →
      (Cache.height node width editor.cache).1 = node.renderedHeight width
  forestHeight : ∀ address forest width,
    editor.session.workspace.forestAt? address = some forest →
      (∀ node ∈ Forest.displayed forest, ¬editor.edited node.id) →
        (Cache.forestHeight width forest editor.cache).1 =
          Cache.totalHeight width (Forest.displayed forest) 0
  /-- Only what is altered has to be marked or dropped, unless a pass is made. -/
  edits : ∀ operation id, operation.isPass = false →
    editor.session.Rewritten (editor.session.perform operation) id →
      editor.session.Alters operation id
  fresh : ∀ address node width, editor.session.workspace.nodeAt? address = some node →
    ∀ later : List (Gesture β), (∀ gesture ∈ later, ¬gesture.Drops node.id) →
      (later.foldl act (editor.act (.measure address width))).cache.needsUpdate node.id = false
  stale : ∀ (gesture : Gesture β) id, gesture.Drops id →
    (editor.act gesture).cache.needsUpdate id = true
  retained : ∀ (forest : Forest β) id, (editor.cache.retainLive forest).find? id =
    if id ∈ Forest.ids forest then editor.cache.find? id else none

/-- Whatever was done in an editor, no height told is stale. -/
theorem heights_never_stale (keeps : Behavior.KeepsAccounts β) (gestures : List (Gesture β)) :
    (gestures.foldl act {}).Exact := by
  have truthful := Truthful.empty.foldl keeps gestures
  generalize gestures.foldl act {} = editor at truthful
  refine ⟨?_, ?_, ?_, ?_, ?_, ?_⟩
  · intro address node width found unedited
    exact (truthful.tells _ (Session.event_mem_members found) unedited).height_eq width
  · intro address forest width found unedited
    have areMembers := truthful.mem_members_of_displayed found
    apply Cache.forestHeight_eq
    · exact fun node isDisplayed =>
        truthful.tells _ (areMembers node isDisplayed) (unedited node isDisplayed)
    · exact fun left isLeft right isRight same => congrArg Event.behavior
        (truthful.kept.eq_of_id_eq (areMembers left isLeft) (areMembers right isRight) same)
  · exact fun operation id noPass rewritten =>
      Session.alters_of_rewritten truthful.kept noPass rewritten
  · intro address node width found later stay
    apply needsUpdate_foldl later stay
    rw [act, found]
    exact Cache.needsUpdate_of_entry ((Cache.find?_height node width _ node.id).trans (if_pos rfl))
  · exact fun gesture id drops => needsUpdate_of_drops drops
  · exact fun forest id => Cache.find?_retainLive editor.cache id forest

/-- A reminder is measured, gets a second line and is put on a page. -/
def reminder : List (Gesture Kind.Builtin) :=
  [.operate (.build (.comment { text := "Milk" }) [] "reminder"),
    .measure ⟨.held "reminder", []⟩ 140,
    .operate (.alter ⟨.held "reminder", []⟩ (.comment { text := "Milk\nEggs" }) false false),
    .operate (.gather ["reminder"] "page"),
    .invalidate 1]

/-- The entry of the first height is there, but what is told is the height of both lines. -/
theorem heights_never_stale_reminder :
    Behavior.KeepsAccounts Kind.Builtin ∧ (reminder.foldl act {}).Exact ∧
      (reminder.foldl act {}).cache.find? 1 =
        some { width := 140, height := 30, needsUpdate := true } ∧
      ∃ node, (reminder.foldl act {}).session.workspace.nodeAt? ⟨.sheet "page", [0]⟩ = some node ∧
        (Cache.height node 140 (reminder.foldl act {}).cache).1 = 48 := by
  have exact := heights_never_stale Kind.Builtin.keepsAccounts reminder
  have found : (reminder.foldl act {}).session.workspace.nodeAt? ⟨.sheet "page", [0]⟩ =
      some { event := { id := 1, behavior := .comment { text := "Milk\nEggs" } } } :=
    rfl
  refine ⟨Kind.Builtin.keepsAccounts, exact, ?_, _, found, ?_⟩
  · decide
  · rw [exact.height _ _ 140 found]
    · decide
    · exact fun edited => edited.2 rfl

end Editor

end Rendering

end EventSheet
