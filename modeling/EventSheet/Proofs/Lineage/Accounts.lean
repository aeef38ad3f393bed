import EventSheet.Proofs.Snapshot.Restore
import Mathlib.Data.List.Nodup
namespace EventSheet

/-! # Accounts of the nodes there are

Whether a node exists is a flag of its identity, and the nodes themselves are wherever they were
put. The two agree when the nodes in all places are the ones whose flag says that they exist, each
in one place only. What makes, copies or destroys nodes is described by what it exchanges: the
nodes it takes from the places and those it gives back, whatever else there is. -/

/-! ## The nodes of a forest -/

/-- A node by its id, with the node it remembers. -/
abbrev Bond := NodeId × Option NodeId

variable {β : Type}

def Event.bond (event : Event β) : Bond := (event.id, event.remembered)

mutual
def Node.members : Node β → List (Event β)
  | ⟨event, subEvents⟩ => event :: Forest.members subEvents

/-- The events of all nodes in pre-order. -/
def Forest.members : List (Node β) → List (Event β)
  | [] => []
  | head :: tail => head.members ++ Forest.members tail
end

def Node.bonds (node : Node β) : List Bond := node.members.map Event.bond

def Forest.bonds (forest : Forest β) : List Bond := (Forest.members forest).map Event.bond

theorem Node.members_eq (node : Node β) :
    node.members = node.event :: Forest.members node.subEvents := by
  cases node
  rw [members]

@[simp] theorem Forest.members_append (left right : Forest β) :
    Forest.members (left ++ right) = Forest.members left ++ Forest.members right := by
  induction left with
  | nil => rfl
  | cons head tail induction =>
      rw [List.cons_append, members, induction, members, List.append_assoc]

@[simp] theorem Forest.members_singleton (node : Node β) :
    Forest.members [node] = node.members := by
  rw [members, members, List.append_nil]

mutual
theorem Node.ids_eq_map_members : ∀ node : Node β, node.ids = node.members.map Event.id
  | ⟨event, subEvents⟩ => by
      rw [Node.ids, Node.members, List.map_cons, Forest.ids_eq_map_members]

theorem Forest.ids_eq_map_members : ∀ forest : List (Node β),
    Forest.ids forest = (Forest.members forest).map Event.id
  | [] => rfl
  | head :: tail => by
      rw [Forest.ids, Forest.members, List.map_append, head.ids_eq_map_members,
        Forest.ids_eq_map_members tail]
end

theorem Node.bonds_eq (node : Node β) :
    node.bonds = node.event.bond :: Forest.bonds node.subEvents := by
  rw [bonds, members_eq, List.map_cons, Forest.bonds]

@[simp] theorem Forest.bonds_nil : Forest.bonds ([] : Forest β) = [] := rfl

theorem Forest.bonds_cons (head : Node β) (tail : Forest β) :
    Forest.bonds (head :: tail) = head.bonds ++ Forest.bonds tail := by
  rw [bonds, members, List.map_append, Node.bonds, bonds]

@[simp] theorem Forest.bonds_append (left right : Forest β) :
    Forest.bonds (left ++ right) = Forest.bonds left ++ Forest.bonds right := by
  rw [bonds, members_append, List.map_append, bonds, bonds]

@[simp] theorem Forest.bonds_singleton (node : Node β) : Forest.bonds [node] = node.bonds := by
  rw [bonds, members_singleton, Node.bonds]

/-- Sub-events that a node takes in come behind its own. -/
theorem Node.bonds_takingIn (node : Node β) (children : Forest β) :
    ({ node with subEvents := node.subEvents ++ children } : Node β).bonds =
      node.bonds ++ Forest.bonds children := by
  rw [bonds_eq, bonds_eq node, Forest.bonds_append, List.cons_append]

@[simp] theorem Forest.map_fst_bonds (forest : Forest β) :
    (Forest.bonds forest).map Prod.fst = Forest.ids forest := by
  rw [bonds, List.map_map, ids_eq_map_members]
  rfl

@[simp] theorem Node.map_fst_bonds (node : Node β) : node.bonds.map Prod.fst = node.ids := by
  rw [bonds, List.map_map, ids_eq_map_members]
  rfl

/-! ## Who exists -/

namespace Population

variable (population : Population)

theorem identity?_modify (id other : NodeId) (change : Identity → Identity) :
    (population.modify id change).identity? other =
      if other = id then (population.identity? id).map change else population.identity? other := by
  cases id with
  | zero =>
      cases other with
      | zero => simp [identity?]
      | succ index => simp [modify]
  | succ place =>
      cases other with
      | zero => simp [identity?]
      | succ index =>
          simp only [modify, identity?, Array.getElem?_modify]
          by_cases same : place = index
          · subst same
            simp
          · simp [same, Ne.symm same]

theorem identity?_enroll (sample : Sample) (id : NodeId) :
    (enroll sample population).2.identity? id =
      if id = population.nextId then some { sample } else population.identity? id := by
  cases id with
  | zero => simp [identity?, nextId]
  | succ index =>
      simp [enroll, identity?, nextId, Array.getElem?_push]

theorem identity?_eq_none_of_le {id : NodeId} (unused : population.nextId ≤ id) :
    population.identity? id = none := by
  cases id with
  | zero => rfl
  | succ index =>
      rw [nextId, Nat.add_le_add_iff_right] at unused
      exact Array.getElem?_eq_none unused

/-- Only ids that were given out belong to nodes. -/
theorem lt_nextId_of_isAlive {population : Population} {id : NodeId}
    (alive : population.isAlive id = true) : id < population.nextId := by
  by_contra unused
  rw [isAlive, identity?_eq_none_of_le population (Nat.le_of_not_lt unused)] at alive
  cases alive

@[simp] theorem isAlive_enroll (sample : Sample) (id : NodeId) :
    (enroll sample population).2.isAlive id =
      (decide (id = population.nextId) || population.isAlive id) := by
  rw [isAlive, identity?_enroll, isAlive]
  by_cases new : id = population.nextId <;> simp [new]

@[simp] theorem isAlive_retire (id other : NodeId) :
    (population.retire id).isAlive other = (population.isAlive other && decide (other ≠ id)) := by
  rw [retire, isAlive, identity?_modify, isAlive]
  by_cases same : other = id
  · subst same
    cases population.identity? other <;> simp
  · simp [same]

/-- Retiring nodes ends these nodes and no others. -/
theorem isAlive_retireAll (ids : List NodeId) (id : NodeId) :
    (population.retireAll ids).isAlive id = (population.isAlive id && decide (id ∉ ids)) := by
  induction ids generalizing population with
  | nil => simp
  | cons head tail induction =>
      rw [retireAll_cons, induction, isAlive_retire, Bool.and_assoc]
      simp [not_or]

/-! ## Publishing -/

@[simp] theorem isAlive_publish (id other : NodeId) (sample : Sample) :
    (publish id sample population).2.isAlive other = population.isAlive other := by
  rw [publish]
  split
  · rw [isAlive, identity?_modify, isAlive]
    by_cases same : other = id
    · subst same
      cases population.identity? other <;> simp
    · simp [same]
  · rfl

@[simp] theorem nextId_publish (id : NodeId) (sample : Sample) :
    (publish id sample population).2.nextId = population.nextId := by
  rw [publish]
  split <;> simp [nextId]

/-- Publishing answers whether the node exists, and changes the sample of that node only. -/
theorem sample_publish (id other : NodeId) (sample : Sample) :
    (publish id sample population).2.sample other =
      if other = id ∧ population.isAlive id = true then sample else population.sample other := by
  rw [publish]
  by_cases alive : population.isAlive id = true
  · rw [if_pos alive, Population.sample, identity?_modify]
    by_cases same : other = id
    · subst same
      rw [isAlive] at alive
      cases found : population.identity? other with
      | none =>
          rw [found] at alive
          cases alive
      | some identity => simp [isAlive, found, found ▸ alive]
    · simp [same, Population.sample]
  · rw [if_neg alive, if_neg (fun both => alive both.2)]

/-! ## Accounts -/

/-- The nodes of these bonds are the ones that exist, each given once. -/
def Accounts (bonds : List Bond) : Prop :=
  ∀ id, (bonds.map Prod.fst).count id = (population.isAlive id).toNat

variable {population}

theorem Accounts.perm {bonds others : List Bond} (accounts : population.Accounts bonds)
    (same : bonds.Perm others) : population.Accounts others := by
  intro id
  rw [← accounts id]
  exact ((same.map Prod.fst).count_eq id).symm

theorem Accounts.nodup {bonds : List Bond} (accounts : population.Accounts bonds) :
    (bonds.map Prod.fst).Nodup := by
  rw [List.nodup_iff_count_le_one]
  intro id
  rw [accounts id]
  exact Bool.toNat_le _

/-- A node exists when it is in the account. -/
theorem Accounts.isAlive_iff {bonds : List Bond} (accounts : population.Accounts bonds)
    (id : NodeId) : population.isAlive id = true ↔ id ∈ bonds.map Prod.fst := by
  rw [← List.count_pos_iff, accounts id]
  cases population.isAlive id <;> simp

end Population

/-! ## Exchanges -/

/-- From one population to the next the nodes of `taken` are exchanged for those of `given`:
whatever else there is, the account is kept. A node given is one of those taken, with the bond it
had, or it is new. -/
structure Exchange (before : Population) (taken : List Bond) (after : Population)
    (given : List Bond) : Prop where
  grows : before.nextId ≤ after.nextId
  accounts : ∀ rest, before.Accounts (taken ++ rest) → after.Accounts (given ++ rest)
  known : ∀ bond ∈ given, bond ∈ taken ∨ before.nextId ≤ bond.1

namespace Exchange

variable {before between after : Population} {taken middle given : List Bond}

theorem refl (population : Population) (bonds : List Bond) :
    Exchange population bonds population bonds where
  grows := Nat.le_refl _
  accounts := fun _ accounts => accounts
  known := fun _ isMember => .inl isMember

theorem trans (first : Exchange before taken between middle)
    (second : Exchange between middle after given) : Exchange before taken after given where
  grows := Nat.le_trans first.grows second.grows
  accounts := fun rest accounts => second.accounts rest (first.accounts rest accounts)
  known := by
    intro bond isGiven
    rcases second.known bond isGiven with isMiddle | new
    · exact first.known bond isMiddle
    · exact .inr (Nat.le_trans first.grows new)

/-- Nodes that are not touched. -/
theorem frame (exchange : Exchange before taken after given) (others : List Bond) :
    Exchange before (taken ++ others) after (given ++ others) where
  grows := exchange.grows
  accounts := by
    intro rest accounts
    rw [List.append_assoc] at accounts ⊢
    exact exchange.accounts (others ++ rest) accounts
  known := by
    intro bond isGiven
    rcases List.mem_append.mp isGiven with isGiven | isOther
    · rcases exchange.known bond isGiven with isTaken | new
      · exact .inl (List.mem_append_left _ isTaken)
      · exact .inr new
    · exact .inl (List.mem_append_right _ isOther)

theorem perm (exchange : Exchange before taken after given) {others gifts : List Bond}
    (sameTaken : others.Perm taken) (sameGiven : given.Perm gifts) :
    Exchange before others after gifts where
  grows := exchange.grows
  accounts := by
    intro rest accounts
    have kept := exchange.accounts rest (accounts.perm (sameTaken.append_right rest))
    exact kept.perm (sameGiven.append_right rest)
  known := by
    intro bond isGift
    rcases exchange.known bond (sameGiven.mem_iff.mpr isGift) with isTaken | new
    · exact .inl (sameTaken.mem_iff.mpr isTaken)
    · exact .inr new

/-- Nodes that stand in front and are not touched. -/
theorem frameLeft (exchange : Exchange before taken after given) (others : List Bond) :
    Exchange before (others ++ taken) after (others ++ given) :=
  (exchange.frame others).perm List.perm_append_comm List.perm_append_comm

/-- One exchange after the other, each of nodes of its own. -/
theorem both {others gifts : List Bond} (first : Exchange before taken between given)
    (second : Exchange between others after gifts) :
    Exchange before (taken ++ others) after (given ++ gifts) :=
  (first.frame others).trans (second.frameLeft given)

/-- What an exchange makes of a whole account. -/
theorem accounts_of (exchange : Exchange before taken after given)
    (accounts : before.Accounts taken) : after.Accounts given := by
  have whole := exchange.accounts [] (by rwa [List.append_nil])
  rwa [List.append_nil] at whole

/-- New nodes are what they are whatever they remember. -/
theorem relink (exchange : Exchange before [] after given) {gifts : List Bond}
    (sameIds : gifts.map Prod.fst = given.map Prod.fst) : Exchange before [] after gifts where
  grows := exchange.grows
  accounts := by
    intro rest accounts id
    have kept := exchange.accounts rest accounts id
    rw [List.map_append] at kept ⊢
    rw [sameIds]
    exact kept
  known := by
    intro bond isGift
    have isId : bond.1 ∈ given.map Prod.fst := sameIds ▸ List.mem_map_of_mem isGift
    rcases List.mem_map.mp isId with ⟨other, isGiven, same⟩
    rw [← same]
    exact .inr ((exchange.known other isGiven).resolve_left (List.not_mem_nil))

/-! ## Making and destroying -/

theorem enroll (population : Population) (sample : Sample) (link : Option NodeId) :
    Exchange population [] (Population.enroll sample population).2
      [(population.nextId, link)] where
  grows := by
    rw [Population.nextId_enroll]
    exact Nat.le_succ _
  accounts := by
    intro rest accounts id
    have others := accounts id
    rw [List.nil_append] at others
    rw [List.singleton_append, List.map_cons, List.count_cons, others,
      Population.isAlive_enroll]
    by_cases new : id = population.nextId
    · -- no node had the new id
      have unused : population.isAlive population.nextId = false := by
        rw [Population.isAlive, Population.identity?_eq_none_of_le _ (Nat.le_refl _)]
      simp [new, unused]
    · simp [new, Ne.symm new]
  known := by
    intro bond isGiven
    rw [List.mem_singleton.mp isGiven]
    exact .inr (Nat.le_refl _)

/-- Retiring the nodes of an account takes them out of it. -/
theorem retireAll (population : Population) (bonds : List Bond) :
    Exchange population bonds (population.retireAll (bonds.map Prod.fst)) [] where
  grows := Nat.le_of_eq (Population.nextId_retireAll _ _).symm
  accounts := by
    intro rest accounts id
    have whole := accounts id
    have once := accounts.nodup
    rw [List.map_append] at whole once
    rw [List.count_append] at whole
    rw [List.nil_append, Population.isAlive_retireAll]
    by_cases gone : id ∈ bonds.map Prod.fst
    · have absent : id ∉ rest.map Prod.fst := fun remains =>
        (List.nodup_append.mp once).2.2 id gone id remains rfl
      simp [gone, List.count_eq_zero.mpr absent]
    · rw [List.count_eq_zero.mpr gone, Nat.zero_add] at whole
      simp [gone, whole]
  known := fun _ isGiven => nomatch isGiven

theorem create (behavior : β) (population : Population) :
    Exchange population [] (Node.create behavior population).2
      (Node.create behavior population).1.bonds :=
  enroll population {} none

theorem destroyForest (forest : Forest β) (population : Population) :
    Exchange population (Forest.bonds forest) (Forest.destroy forest population).2 [] := by
  have retired := retireAll population (Forest.bonds forest)
  rw [Forest.map_fst_bonds, ← Forest.retire_eq] at retired
  exact retired

theorem destroyNode (node : Node β) (population : Population) :
    Exchange population node.bonds (node.destroy population).2 [] := by
  have retired := retireAll population node.bonds
  rw [Node.map_fst_bonds, ← Node.retire_eq] at retired
  exact retired

/-- Publishing neither makes nor destroys a node. -/
theorem publish (population : Population) (id : NodeId) (sample : Sample) (bonds : List Bond) :
    Exchange population bonds (Population.publish id sample population).2 bonds where
  grows := Nat.le_of_eq (Population.nextId_publish _ _ _).symm
  accounts := by
    intro rest accounts other
    rw [Population.isAlive_publish]
    exact accounts other
  known := fun _ isGiven => .inl isGiven

end Exchange

/-! ## Copies -/

mutual
theorem Exchange.copyNode (link : Event β → Option NodeId) : ∀ (node : Node β)
    (population : Population),
    Exchange population [] (node.copy link population).2 (node.copy link population).1.bonds
  | ⟨event, subEvents⟩, population => by
      have top := Exchange.enroll population (population.sample event.id) (link event)
      have below := Exchange.copyForest link subEvents (event.copy link population).2
      rw [Node.bonds_eq]
      exact top.both below

theorem Exchange.copyForest (link : Event β → Option NodeId) : ∀ (forest : List (Node β))
    (population : Population),
    Exchange population [] (Forest.copy link forest population).2
      (Forest.bonds (Forest.copy link forest population).1)
  | [], population => Exchange.refl population []
  | head :: tail, population => by
      have first := Exchange.copyNode link head population
      have rest := Exchange.copyForest link tail (head.copy link population).2
      have copies : Forest.bonds (Forest.copy link (head :: tail) population).1 =
          (head.copy link population).1.bonds ++
            Forest.bonds (Forest.copy link tail (head.copy link population).2).1 :=
        Forest.bonds_cons _ _
      rw [copies]
      exact first.both rest
end

/-- The bonds that copies get: consecutive ids from one on, each with the link of its source. -/
def Bond.numbered (first : NodeId) (links : List (Option NodeId)) : List Bond :=
  links.mapIdx fun index link => (first + index, link)

theorem Bond.numbered_append (first : NodeId) (left right : List (Option NodeId)) :
    Bond.numbered first (left ++ right) =
      Bond.numbered first left ++ Bond.numbered (first + left.length) right := by
  simp only [numbered, List.mapIdx_append, Nat.add_assoc, Nat.add_comm left.length]

theorem Bond.numbered_cons (first : NodeId) (link : Option NodeId)
    (links : List (Option NodeId)) :
    Bond.numbered first (link :: links) = (first, link) :: Bond.numbered (first + 1) links :=
  numbered_append first [link] links

theorem Bond.map_fst_numbered (first : NodeId) (links : List (Option NodeId)) :
    (Bond.numbered first links).map Prod.fst = List.range' first links.length := by
  induction links generalizing first with
  | nil => rfl
  | cons link rest induction =>
      rw [numbered_cons, List.map_cons, induction, List.length_cons, List.range'_succ]

mutual
theorem Node.bonds_copy (link : Event β → Option NodeId) : ∀ (node : Node β)
    (population : Population),
    (node.copy link population).1.bonds =
        Bond.numbered population.nextId (node.members.map link) ∧
      (node.copy link population).2.nextId = population.nextId + node.members.length
  | ⟨event, subEvents⟩, population => by
      have below := Forest.bonds_copy link subEvents (event.copy link population).2
      have enrolled : (event.copy link population).2.nextId = population.nextId + 1 :=
        Population.nextId_enroll _ _
      rw [enrolled] at below
      constructor
      · rw [Node.bonds_eq, Node.members, List.map_cons]
        rw [Bond.numbered_cons, ← below.1]
        rfl
      · rw [Node.members, List.length_cons, Nat.add_comm _ 1, ← Nat.add_assoc]
        exact below.2

/-- Copies are numbered in pre-order, and each has the link of its source. -/
theorem Forest.bonds_copy (link : Event β → Option NodeId) : ∀ (forest : List (Node β))
    (population : Population),
    Forest.bonds (Forest.copy link forest population).1 =
        Bond.numbered population.nextId ((Forest.members forest).map link) ∧
      (Forest.copy link forest population).2.nextId =
        population.nextId + (Forest.members forest).length
  | [], population => ⟨rfl, rfl⟩
  | head :: tail, population => by
      have first := Node.bonds_copy link head population
      have rest := Forest.bonds_copy link tail (head.copy link population).2
      rw [first.2] at rest
      constructor
      · have copies : Forest.bonds (Forest.copy link (head :: tail) population).1 =
            (head.copy link population).1.bonds ++
              Forest.bonds (Forest.copy link tail (head.copy link population).2).1 :=
          Forest.bonds_cons _ _
        rw [copies, first.1, rest.1, Forest.members, List.map_append, Bond.numbered_append,
          List.length_map]
      · rw [Forest.members, List.length_append, ← Nat.add_assoc]
        exact rest.2
end

/-! ## Restored forests -/

namespace Rebuilding

/-- Closing nodes moves them, which leaves them in their order. -/
theorem bonds_closeTo (depth : Nat) (rebuilding : Rebuilding β) :
    Forest.bonds (rebuilding.closeTo depth).nodes = Forest.bonds rebuilding.nodes := by
  apply closeTo_preserves fun closed => Forest.bonds closed.nodes = Forest.bonds rebuilding.nodes
  · rintro ⟨roots, openNodes⟩ same
    rw [← same]
    cases openNodes with
    | nil => rfl
    | cons node outer =>
        cases outer with
        | nil => simp [closeInnermost, nodes]
        | cons parent outer =>
            simp [closeInnermost, nodes, Node.bonds_takingIn, Forest.bonds_cons parent]
  · rfl

variable [EventKind β]

/-- A record is refused, or a node that remembers nothing is made for it, behind all others. -/
theorem add_cases (registry : Registry β) (position : Nat) (record : EventRecord)
    (rebuilding : Rebuilding β) (population : Population) :
    (∃ error, rebuilding.add registry position record population = (.error error, population)) ∨
    ∃ next, rebuilding.add registry position record population =
        (.ok next, (Population.enroll {} population).2) ∧
      Forest.bonds next.nodes = Forest.bonds rebuilding.nodes ++ [(population.nextId, none)] := by
  have closed := bonds_closeTo record.depth rebuilding
  by_cases tooDeep : rebuilding.openNodes.length < record.depth
  · simp only [add, tooDeep, ↓reduceIte]
    exact .inl ⟨_, rfl⟩
  · simp only [add, tooDeep, ↓reduceIte]
    generalize rebuilding.closeTo record.depth = innermost at closed
    cases innermost.openNodes.head?.filter (fun parent => !parent.ownsSubEvents) with
    | some parent => exact .inl ⟨_, rfl⟩
    | none =>
        cases registry.create record.kind record.payload with
        | error error => exact .inl ⟨_, rfl⟩
        | ok behavior =>
            refine .inr ⟨_, rfl, ?_⟩
            rw [← closed, nodes, List.reverse_cons, ← List.append_assoc, Forest.bonds_append,
              Forest.bonds_singleton, nodes]
            rfl

/-- What there is once all records were taken in, or one was refused. -/
theorem addAll_exchange (registry : Registry β) : ∀ (records : List EventRecord) (position : Nat)
    (rebuilding : Rebuilding β) (population : Population),
    match addAll registry position records rebuilding population with
    | (.ok forest, after) =>
        Exchange population (Forest.bonds rebuilding.nodes) after (Forest.bonds forest) ∧
          Forest.bonds forest = Forest.bonds rebuilding.nodes ++
            Bond.numbered population.nextId (List.replicate records.length none)
    | (.error _, after) => Exchange population (Forest.bonds rebuilding.nodes) after [] := by
  intro records
  induction records with
  | nil =>
      intro position rebuilding population
      have closed : (rebuilding.closeTo 0).openNodes = [] := by
        apply List.eq_nil_of_length_eq_zero
        rw [length_closeTo, Nat.zero_min]
      have same := bonds_closeTo 0 rebuilding
      rw [nodes, closed, List.reverse_nil, List.append_nil] at same
      refine ⟨?_, ?_⟩
      · rw [same]
        exact Exchange.refl _ _
      · rw [same]
        exact (List.append_nil _).symm
  | cons record rest induction =>
      intro position rebuilding population
      rcases add_cases registry position record rebuilding population with
        ⟨error, refused⟩ | ⟨next, taken, bonds⟩
      · rw [addAll]
        simp only [bind, StateT.bind, refused]
        exact Exchange.destroyForest _ _
      · rw [addAll_of_ok (by rw [taken]), taken]
        have further := induction (position + 1) next (Population.enroll {} population).2
        have made : Exchange population (Forest.bonds rebuilding.nodes)
            (Population.enroll {} population).2 (Forest.bonds next.nodes) := by
          rw [bonds]
          exact ((Exchange.enroll population {} none).frameLeft _).perm
            (by rw [List.append_nil]) (List.Perm.refl _)
        rcases outcome : addAll registry (position + 1) rest next
          (Population.enroll {} population).2 with ⟨result, after⟩
        rw [outcome] at further
        cases result with
        | ok forest =>
            refine ⟨made.trans further.1, ?_⟩
            rw [further.2, bonds, Population.nextId_enroll, List.append_assoc, List.length_cons,
              List.replicate_succ, Bond.numbered_cons, List.singleton_append]
        | error error => exact made.trans further

end Rebuilding

/-- A restored forest is new and remembers nothing; nothing stays of one that is refused. -/
theorem Snapshot.restore_exchange [EventKind β] (registry : Registry β) (snapshot : Snapshot)
    (population : Population) :
    match snapshot.restore registry population with
    | (.ok forest, after) =>
        Exchange population [] after (Forest.bonds forest) ∧
          Forest.bonds forest =
            Bond.numbered population.nextId (List.replicate snapshot.events.length none)
    | (.error _, after) => Exchange population [] after [] := by
  rw [restore]
  by_cases newer : formatVersion < snapshot.version
  · rw [if_pos newer]
    exact Exchange.refl _ _
  · rw [if_neg newer]
    exact Rebuilding.addAll_exchange registry snapshot.events 0 {} population

end EventSheet
