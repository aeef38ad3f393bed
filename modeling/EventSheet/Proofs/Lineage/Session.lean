import EventSheet.Proofs.Lineage.Operations
namespace EventSheet

/-! # Lineage over whole sessions

A session is a workspace with the handles that were taken to its nodes. However it came about, the
nodes that exist are the nodes it holds; a node keeps the bond it was made with for as long as it
exists; and a node that was destroyed stays destroyed, whoever holds a handle to it. -/

structure Session (β : Type) where
  workspace : Workspace β := {}
  handles : Named NodeId := []

namespace Session

open Workspace

variable {β : Type}

def population (session : Session β) : Population := session.workspace.population

def bonds (session : Session β) : List Bond := session.workspace.bonds

def members (session : Session β) : List (Event β) := Forest.members session.workspace.nodes

def ids (session : Session β) : List NodeId := Forest.ids session.workspace.nodes

/-- Publish through the handle of a name, if there is one. -/
def publish (name : String) (sample : Sample) (session : Session β) :
    Option Bool × Session β :=
  match session.handles.lookup name with
  | none => (none, session)
  | some id =>
      let (answer, population) := Population.publish id sample session.population
      (some answer, { session with workspace := { session.workspace with population } })

/-- A handle to the node at an address. -/
def handleAt? (session : Session β) (address : Address) : Option NodeId :=
  match (nodeAt address session.workspace).1 with
  | .ok node => some node.id
  | .error _ => none

/-- A handle to the node that the one at an address remembers, while there is such a node. -/
def originalAt? (session : Session β) (address : Address) : Option NodeId :=
  match (nodeAt address session.workspace).1 with
  | .ok node => node.event.remembered? session.population
  | .error _ => none

def keepHandle (session : Session β) (name : String) : Option NodeId → Session β
  | none => session
  | some id => { session with handles := session.handles.put name id }

section

variable [Behavior β]

def perform (session : Session β) : Operation β → Session β
  | .takeHandle address target => session.keepHandle target (session.handleAt? address)
  | .takeOriginal address target => session.keepHandle target (session.originalAt? address)
  | .copyHandle name target => session.keepHandle target (session.handles.lookup name)
  | .publish name sample => (session.publish name sample).2
  | operation => { session with workspace := (operation.edit session.workspace).2 }

/-- The session in which these things were done one after the other. -/
def after (history : List (Operation β)) : Session β := history.foldl perform {}

theorem after_append (history later : List (Operation β)) :
    after (history ++ later) = later.foldl perform (after history) :=
  List.foldl_append

end

/-! ## What every session is -/

/-- All handles are to nodes that were made. -/
def Issued (handles : Named NodeId) (population : Population) : Prop :=
  ∀ entry ∈ handles, entry.2 < population.nextId

/-- The nodes that exist are those in the session, each in one place; handles are to nodes that
were made. -/
structure WellKept (session : Session β) : Prop where
  distinct : session.workspace.Distinct
  accounts : session.population.Accounts session.bonds
  issued : Issued session.handles session.population

/-- From one session to a later one nodes keep their bonds, and those that were destroyed do not
come back: whatever node there is has the bond it had, or is new. -/
structure Lasts (before after : Session β) : Prop where
  grows : before.population.nextId ≤ after.population.nextId
  known : ∀ bond ∈ after.bonds, bond ∈ before.bonds ∨ before.population.nextId ≤ bond.1

namespace Lasts

variable {before between after : Session β}

theorem refl (session : Session β) : session.Lasts session :=
  ⟨Nat.le_refl _, fun _ isMember => .inl isMember⟩

theorem trans (first : before.Lasts between) (second : between.Lasts after) :
    before.Lasts after where
  grows := Nat.le_trans first.grows second.grows
  known := by
    intro bond isMember
    rcases second.known bond isMember with isBetween | new
    · exact first.known bond isBetween
    · exact .inr (Nat.le_trans first.grows new)

end Lasts

theorem wellKept_empty : WellKept ({} : Session β) where
  distinct := ⟨List.nodup_nil, List.nodup_nil⟩
  accounts := by
    intro id
    cases id <;> rfl
  issued := fun _ isMember => nomatch isMember

variable {session : Session β}

theorem map_fst_bonds (session : Session β) : session.bonds.map Prod.fst = session.ids :=
  Forest.map_fst_bonds _

theorem WellKept.isAlive_iff (kept : session.WellKept) (id : NodeId) :
    session.population.isAlive id = true ↔ id ∈ session.ids := by
  rw [kept.accounts.isAlive_iff, map_fst_bonds]

theorem WellKept.isAlive_eq (kept : session.WellKept) :
    session.population.isAlive = fun id => decide (id ∈ session.ids) := by
  funext id
  rw [Bool.eq_iff_iff, kept.isAlive_iff, decide_eq_true_iff]

theorem WellKept.nodup_ids (kept : session.WellKept) : session.ids.Nodup := by
  rw [← map_fst_bonds]
  exact kept.accounts.nodup

/-- The node at an address is in the session. -/
theorem event_mem_members {address : Address} {node : Node β}
    (found : session.workspace.nodeAt? address = some node) : node.event ∈ session.members := by
  rcases address with ⟨root, place⟩
  rw [members, nodes, Forest.members_append, List.mem_append]
  cases root with
  | sheet name =>
      rw [nodeAt?, Option.bind_eq_some_iff] at found
      rcases found with ⟨forest, isSheet, isNode⟩
      rcases List.lookup_eq_some_iff.mp isSheet with ⟨before, behind, split, _⟩
      left
      rw [split, List.flatMap_append, List.flatMap_cons]
      simp only [Forest.members_append, List.mem_append]
      exact .inr (.inl (Forest.mem_members_atPlace? isNode))
  | held name =>
      rw [nodeAt?, Option.bind_eq_some_iff] at found
      rcases found with ⟨tree, isHeld, isNode⟩
      rcases List.lookup_eq_some_iff.mp isHeld with ⟨before, behind, split, _⟩
      have isTree : tree ∈ session.workspace.held.map Prod.snd := by
        rw [split]
        simp
      exact .inr (Forest.members_subset isTree (Node.mem_members_atPlace? place tree isNode))

theorem handleAt?_of_some {address : Address} {node : Node β}
    (found : session.workspace.nodeAt? address = some node) :
    session.handleAt? address = some node.id := by
  rw [handleAt?, nodeAt_of_some found]

theorem handleAt?_of_none {address : Address}
    (missing : session.workspace.nodeAt? address = none) : session.handleAt? address = none := by
  rcases nodeAt_of_none missing with ⟨astray, runs⟩
  rw [handleAt?, runs]

theorem originalAt?_of_some {address : Address} {node : Node β}
    (found : session.workspace.nodeAt? address = some node) :
    session.originalAt? address = node.event.remembered? session.population := by
  rw [originalAt?, nodeAt_of_some found]

theorem originalAt?_of_none {address : Address}
    (missing : session.workspace.nodeAt? address = none) :
    session.originalAt? address = none := by
  rcases nodeAt_of_none missing with ⟨astray, runs⟩
  rw [originalAt?, runs]

/-- A node that exists was made. -/
theorem WellKept.lt_nextId (kept : session.WellKept) {id : NodeId} (isNode : id ∈ session.ids) :
    id < session.population.nextId :=
  Population.lt_nextId_of_isAlive ((kept.isAlive_iff id).mpr isNode)

/-- A link leads to the node it was set to while that one is in the session. -/
theorem WellKept.remembered?_eq (kept : session.WellKept) (event : Event β) :
    event.remembered? session.population =
      event.remembered.filter fun id => decide (id ∈ session.ids) := by
  rw [Event.remembered?, Population.resolve, kept.isAlive_eq]

/-! ## Handles -/

theorem handleAt?_mem {address : Address} {id : NodeId}
    (taken : session.handleAt? address = some id) : id ∈ session.ids := by
  cases found : session.workspace.nodeAt? address with
  | none =>
      rw [handleAt?_of_none found] at taken
      cases taken
  | some node =>
      rw [handleAt?_of_some found] at taken
      cases taken
      rw [ids, Forest.ids_eq_map_members]
      exact List.mem_map_of_mem (event_mem_members found)

theorem WellKept.originalAt?_mem (kept : session.WellKept) {address : Address} {id : NodeId}
    (taken : session.originalAt? address = some id) : id ∈ session.ids := by
  cases found : session.workspace.nodeAt? address with
  | none =>
      rw [originalAt?_of_none found] at taken
      cases taken
  | some node =>
      rw [originalAt?_of_some found, kept.remembered?_eq, Option.filter_eq_some_iff] at taken
      exact of_decide_eq_true taken.2

theorem issued_keepHandle {population : Population} (issued : Issued session.handles population)
    (name : String) {id? : Option NodeId} (made : ∀ id ∈ id?, id < population.nextId) :
    Issued (session.keepHandle name id?).handles population := by
  cases id? with
  | none => exact issued
  | some id =>
      intro entry isEntry
      rcases List.mem_append.mp isEntry with isOther | isNew
      · exact issued entry (List.mem_filter.mp isOther).1
      · rw [List.mem_singleton.mp isNew]
        exact made id rfl

theorem workspace_keepHandle (session : Session β) (name : String) (id? : Option NodeId) :
    (session.keepHandle name id?).workspace = session.workspace := by
  cases id? <;> rfl

theorem handles_publish (session : Session β) (name : String) (sample : Sample) :
    (session.publish name sample).2.handles = session.handles := by
  rw [publish]
  cases session.handles.lookup name <;> rfl

theorem publish_change (distinct : session.workspace.Distinct) (name : String)
    (sample : Sample) :
    Change [] [] session.workspace [] (session.publish name sample).2.workspace [] := by
  rw [publish]
  cases session.handles.lookup name with
  | none => exact Change.refl distinct []
  | some id =>
      refine ⟨⟨distinct.sheets, distinct.held⟩, Exchange.publish _ _ _ _, ?_⟩
      exact List.Perm.refl _

/-! ## What handles and links tell -/

/-- Handles and links tell what there is: a handle is alive when its node is in the session, and a
link leads to the node it was set to when that one is. Publishing through a handle reaches that
node and no other, and does nothing when it is gone. -/
structure Exact (session : Session β) : Prop where
  once : session.ids.Nodup
  isAlive_iff : ∀ id, session.population.isAlive id = true ↔ id ∈ session.ids
  issued : ∀ entry ∈ session.handles, entry.2 < session.population.nextId
  handleAt? : ∀ address node, session.workspace.nodeAt? address = some node →
    node.id ∈ session.ids ∧ session.handleAt? address = some node.id
  originalAt? : ∀ address node, session.workspace.nodeAt? address = some node →
    session.originalAt? address =
      node.event.remembered.filter fun original => decide (original ∈ session.ids)
  publish_of_alive : ∀ name id sample, session.handles.lookup name = some id → id ∈ session.ids →
    ∃ population, session.publish name sample =
        (some true, { session with workspace := { session.workspace with population } }) ∧
      population.nextId = session.population.nextId ∧
      population.isAlive = session.population.isAlive ∧
      ∀ other, population.sample other =
        if other = id then sample else session.population.sample other
  publish_of_gone : ∀ name id sample, session.handles.lookup name = some id → id ∉ session.ids →
    session.publish name sample = (some false, session)

theorem WellKept.exact (kept : session.WellKept) : session.Exact where
  once := kept.nodup_ids
  isAlive_iff := kept.isAlive_iff
  issued := kept.issued
  handleAt? := by
    intro address node found
    have taken := handleAt?_of_some found
    exact ⟨handleAt?_mem taken, taken⟩
  originalAt? := by
    intro address node found
    rw [originalAt?_of_some found, kept.remembered?_eq]
  publish_of_alive := by
    intro name id sample found isNode
    have alive := (kept.isAlive_iff id).mpr isNode
    refine ⟨(Population.publish id sample session.population).2, ?_, ?_, ?_, ?_⟩
    · have answers : (Population.publish id sample session.population).1 = true := by
        rw [Population.publish, if_pos alive]
      rw [publish, found, ← answers]
      rfl
    · exact Population.nextId_publish _ _ _
    · funext other
      exact Population.isAlive_publish _ _ _ _
    · intro other
      rw [Population.sample_publish]
      simp [alive]
  publish_of_gone := by
    intro name id sample found gone
    have unchanged : Population.publish id sample session.population =
        (false, session.population) :=
      if_neg fun alive => gone ((kept.isAlive_iff id).mp alive)
    rw [publish, found]
    dsimp only
    rw [unchanged]
    rfl

/-! ## One thing done -/

section

variable [Behavior β]

theorem conforms_perform (keeps : Behavior.KeepsAccounts β) (kept : session.WellKept)
    (operation : Operation β) :
    operation.Conforms session.workspace (session.perform operation).workspace := by
  cases operation with
  | takeHandle | takeOriginal | copyHandle =>
      rw [perform, workspace_keepHandle]
      exact Change.refl kept.distinct []
  | publish name sample => exact publish_change kept.distinct name sample
  | _ => exact Operation.conforms_edit keeps kept.distinct _

theorem WellKept.perform (keeps : Behavior.KeepsAccounts β) (kept : session.WellKept)
    (operation : Operation β) : (session.perform operation).WellKept := by
  rcases (conforms_perform keeps kept operation).exchange kept.distinct with ⟨distinct, exchange⟩
  refine ⟨distinct, exchange.accounts_of kept.accounts, ?_⟩
  have issued : Issued session.handles (session.perform operation).population := by
    intro entry isEntry
    exact Nat.lt_of_lt_of_le (kept.issued entry isEntry) exchange.grows
  cases operation with
  | takeHandle address target =>
      rw [Session.perform, population, workspace_keepHandle]
      apply issued_keepHandle kept.issued
      intro id taken
      exact kept.lt_nextId (handleAt?_mem taken)
  | takeOriginal address target =>
      rw [Session.perform, population, workspace_keepHandle]
      apply issued_keepHandle kept.issued
      intro id taken
      exact kept.lt_nextId (kept.originalAt?_mem taken)
  | copyHandle name target =>
      rw [Session.perform, population, workspace_keepHandle]
      apply issued_keepHandle kept.issued
      intro id found
      rcases List.lookup_eq_some_iff.mp found with ⟨before, behind, split, _⟩
      exact kept.issued (name, id) (split ▸ List.mem_append_right _ List.mem_cons_self)
  | publish name sample =>
      rw [Session.perform, handles_publish]
      exact issued
  | _ => exact issued

theorem lasts_perform (keeps : Behavior.KeepsAccounts β) (kept : session.WellKept)
    (operation : Operation β) : session.Lasts (session.perform operation) := by
  rcases (conforms_perform keeps kept operation).exchange kept.distinct with ⟨_, exchange⟩
  exact ⟨exchange.grows, exchange.known⟩

/-- What was there and was not destroyed exists, with what was made. -/
theorem isAlive_perform (keeps : Behavior.KeepsAccounts β) (kept : session.WellKept)
    {operation : Operation β} (noPass : operation.isPass = false) (id : NodeId) :
    (session.perform operation).population.isAlive id = true ↔
      (id ∈ session.ids ∨ id ∈ (operation.account session.workspace).made.map Prod.fst) ∧
        id ∉ (operation.account session.workspace).destroyed.map Prod.fst := by
  have after := kept.perform keeps operation
  have balance : ((session.perform operation).bonds ++ [] ++ _).Perm (session.bonds ++ [] ++ _) :=
    ((conforms_perform keeps kept operation).accounted noPass).account
  rw [List.append_nil, List.append_nil] at balance
  have ids := balance.map Prod.fst
  rw [List.map_append, List.map_append] at ids
  -- new ids are behind all others, so no id is on either side twice
  have once : (session.bonds.map Prod.fst ++
      (operation.account session.workspace).made.map Prod.fst).Nodup := by
    rcases operation.account_made session.workspace with ⟨links, numbered⟩
    rw [numbered, Bond.map_fst_numbered, List.nodup_append]
    refine ⟨kept.accounts.nodup, List.nodup_range', ?_⟩
    intro old isOld new isNew same
    have made := (List.mem_range'_1.mp isNew).1
    have used := Population.lt_nextId_of_isAlive ((kept.accounts.isAlive_iff old).mpr isOld)
    rw [same] at used
    exact Nat.not_le_of_lt used made
  have apart := (List.nodup_append.mp (ids.nodup_iff.mpr once)).2.2
  have present : id ∈ _ ↔ id ∈ _ := ids.mem_iff
  rw [List.mem_append, List.mem_append, map_fst_bonds session] at present
  rw [after.accounts.isAlive_iff]
  constructor
  · intro isAfter
    exact ⟨present.mp (.inl isAfter), fun gone => apart id isAfter id gone rfl⟩
  · rintro ⟨was, stays⟩
    exact (present.mpr was).resolve_right stays

/-! ## Histories -/

theorem wellKept_foldl (keeps : Behavior.KeepsAccounts β) (later : List (Operation β)) :
    ∀ session : Session β, session.WellKept →
      (later.foldl perform session).WellKept ∧ session.Lasts (later.foldl perform session) := by
  induction later with
  | nil => exact fun session kept => ⟨kept, Lasts.refl session⟩
  | cons operation rest induction =>
      intro session kept
      rcases induction _ (kept.perform keeps operation) with ⟨further, lasts⟩
      exact ⟨further, (lasts_perform keeps kept operation).trans lasts⟩

/-- Whatever was done in a session, handles and links tell what there is. Whatever is done next,
the nodes it destroys are those of its account, and no others; and whatever is done later, no node
gets another link and none that was destroyed comes back. -/
theorem lineage_exact (keeps : Behavior.KeepsAccounts β) (history : List (Operation β)) :
    (after history).Exact ∧
      (∀ operation : Operation β,
        operation.Conforms (after history).workspace (after (history ++ [operation])).workspace ∧
          (operation.isPass = false → ∀ id,
            (after (history ++ [operation])).population.isAlive id = true ↔
              (id ∈ (after history).ids ∨
                id ∈ (operation.account (after history).workspace).made.map Prod.fst) ∧
              id ∉ (operation.account (after history).workspace).destroyed.map Prod.fst)) ∧
      ∀ later, (after history).Lasts (after (history ++ later)) := by
  have kept : (after history).WellKept := (wellKept_foldl keeps history {} wellKept_empty).1
  refine ⟨kept.exact, ?_, ?_⟩
  · intro operation
    rw [after_append]
    exact ⟨conforms_perform keeps kept operation,
      fun noPass => isAlive_perform keeps kept noPass⟩
  · intro later
    rw [after_append]
    exact (wellKept_foldl keeps later _ kept).2

end

/-- A link to a chorus is cloned and expanded in the clone; the song it stood in and the chorus are
gone after that, with two handles to the link still kept. -/
def rehearsal : List (Operation Kind.Builtin) :=
  [.build (.standard { actions := [{ name := "sing" }] }) [] "verse",
    .gather ["verse"] "chorus",
    .build (.link { target := "refrain" }) [] "call",
    .takeHandle ⟨.held "call", []⟩ "caller",
    .gather ["call"] "song",
    .cloneForest ⟨.sheet "song", []⟩ true "score",
    .takeOriginal ⟨.sheet "score", [0]⟩ "original",
    .preprocess 9 "song" 4 [("refrain", "chorus")] "score",
    .drop (.sheet "song")]

theorem rehearsal_exact :
    Behavior.KeepsAccounts Kind.Builtin ∧ (after rehearsal).Exact ∧
      (after rehearsal).bonds = [(4, some 1)] ∧
      (after rehearsal).handles = [("caller", 2), ("original", 2)] ∧
      (after rehearsal).publish "original" {} = (some false, after rehearsal) := by
  have exact := (lineage_exact Kind.Builtin.keepsAccounts rehearsal).1
  have handles : (after rehearsal).handles = [("caller", 2), ("original", 2)] := by
    decide +kernel
  refine ⟨Kind.Builtin.keepsAccounts, exact, by decide +kernel, handles, ?_⟩
  apply exact.publish_of_gone "original" 2 {}
  · rw [handles]
    rfl
  · decide +kernel

end Session

end EventSheet
