import EventSheet.Proofs.Lineage.Accounts
namespace EventSheet

/-! # The numbers of new nodes

One copy or restore gives its nodes consecutive ids in pre-order, from the next id on. Whatever is
made or destroyed, the samples of the nodes there were stay as they are. -/

variable {β : Type}

/-! ## Consecutive ids -/

mutual
theorem Node.length_members : ∀ node : Node β, node.members.length = node.count
  | ⟨event, subEvents⟩ => by
      rw [Node.members, List.length_cons, Forest.length_members, Node.count]

theorem Forest.length_members : ∀ forest : List (Node β),
    (Forest.members forest).length = Forest.count forest
  | [] => rfl
  | head :: tail => by
      rw [Forest.members, List.length_append, head.length_members, Forest.length_members tail,
        Forest.count]
end

theorem Node.ids_copy (link : Event β → Option NodeId) (node : Node β) (population : Population) :
    (node.copy link population).1.ids = List.range' population.nextId node.count := by
  rw [← map_fst_bonds, (bonds_copy link node population).1, Bond.map_fst_numbered,
    List.length_map, length_members]

theorem Forest.ids_copy (link : Event β → Option NodeId) (forest : Forest β)
    (population : Population) :
    ids (Forest.copy link forest population).1 = List.range' population.nextId (count forest) := by
  rw [← map_fst_bonds, (bonds_copy link forest population).1, Bond.map_fst_numbered,
    List.length_map, length_members]

/-- Cloning gives out as many ids as there are nodes, whatever the copies remember. -/
theorem Node.ids_clone (node : Node β) (remembering : Bool) (population : Population) :
    ((if remembering then node.cloneRemembering else node.clone) population).1.ids =
      List.range' population.nextId node.count := by
  have plain := node.ids_copy Event.remembered population
  rw [← Node.clone_eq_copy] at plain
  cases remembering with
  | false => exact plain
  | true =>
      have same : (node.cloneRemembering population).1.ids = (node.clone population).1.ids := by
        rw [ids_eq_map_members, ids_eq_map_members, members_eq, members_eq]
        rfl
      exact same.trans plain

theorem Forest.ids_clone (forest : Forest β) (remembering : Bool) (population : Population) :
    ids ((if remembering then Forest.cloneRemembering forest else Forest.clone forest)
        population).1 =
      List.range' population.nextId (count forest) := by
  rw [Forest.cloned_eq_copy]
  exact ids_copy _ forest population

theorem Snapshot.ids_of_restore [EventKind β] {registry : Registry β} {snapshot : Snapshot}
    {population : Population} {forest : Forest β}
    (restored : (snapshot.restore registry population).1 = .ok forest) :
    Forest.ids forest = List.range' population.nextId snapshot.events.length := by
  have exchange := snapshot.restore_exchange registry population
  rcases outcome : snapshot.restore registry population with ⟨result, after⟩
  rw [outcome] at restored exchange
  subst restored
  rw [← Forest.map_fst_bonds, exchange.2, Bond.map_fst_numbered, List.length_replicate]

/-! ## Earlier nodes -/

/-- From one population to a later one, nodes there were keep their samples. -/
structure Population.Continues (before after : Population) : Prop where
  grows : before.nextId ≤ after.nextId
  sample : ∀ id < before.nextId, after.sample id = before.sample id

namespace Population.Continues

variable {before between after : Population}

theorem refl (population : Population) : population.Continues population :=
  ⟨Nat.le_refl _, fun _ _ => rfl⟩

theorem trans (first : before.Continues between) (second : between.Continues after) :
    before.Continues after where
  grows := Nat.le_trans first.grows second.grows
  sample := by
    intro id isOld
    rw [second.sample id (Nat.lt_of_lt_of_le isOld first.grows), first.sample id isOld]

theorem enroll (population : Population) (sample : Sample) :
    population.Continues (Population.enroll sample population).2 where
  grows := by
    rw [nextId_enroll]
    exact Nat.le_succ _
  sample := by
    intro id isOld
    rw [Population.sample, identity?_enroll, if_neg (Nat.ne_of_lt isOld), Population.sample]

theorem retire (population : Population) (id : NodeId) :
    population.Continues (population.retire id) where
  grows := Nat.le_of_eq (nextId_retireAll population [id]).symm
  sample := by
    intro other _
    rw [Population.retire, Population.sample, identity?_modify, Population.sample]
    by_cases same : other = id
    · subst same
      rw [if_pos rfl]
      cases population.identity? other <;> rfl
    · rw [if_neg same]

theorem retireAll (population : Population) (ids : List NodeId) :
    population.Continues (population.retireAll ids) := by
  induction ids generalizing population with
  | nil => exact refl population
  | cons id rest induction => exact (retire population id).trans (induction _)

theorem destroyForest (forest : Forest β) (population : Population) :
    population.Continues (Forest.destroy forest population).2 := by
  have retired := retireAll population (Forest.ids forest)
  rwa [← Forest.retire_eq] at retired

mutual
theorem copyNode (link : Event β → Option NodeId) : ∀ (node : Node β) (population : Population),
    population.Continues (node.copy link population).2
  | ⟨_, subEvents⟩, population =>
      (enroll population _).trans (copyForest link subEvents _)

theorem copyForest (link : Event β → Option NodeId) : ∀ (forest : List (Node β))
    (population : Population), population.Continues (Forest.copy link forest population).2
  | [], population => refl population
  | head :: tail, population => (copyNode link head population).trans (copyForest link tail _)
end

theorem addAll [EventKind β] (registry : Registry β) (records : List EventRecord) :
    ∀ (position : Nat) (rebuilding : Rebuilding β) (population : Population),
      population.Continues
        (Rebuilding.addAll registry position records rebuilding population).2 := by
  induction records with
  | nil => exact fun _ _ population => refl population
  | cons record rest induction =>
      intro position rebuilding population
      rcases Rebuilding.add_cases registry position record rebuilding population with
        ⟨error, refused⟩ | ⟨next, taken, _⟩
      · rw [Rebuilding.addAll]
        simp only [bind, StateT.bind, refused]
        exact destroyForest _ _
      · rw [Rebuilding.addAll_of_ok (by rw [taken]), taken]
        exact (enroll population {}).trans (induction _ _ _)

theorem restore [EventKind β] (registry : Registry β) (snapshot : Snapshot)
    (population : Population) :
    population.Continues (snapshot.restore registry population).2 := by
  rw [Snapshot.restore]
  split
  · exact refl population
  · exact addAll registry snapshot.events 0 {} population

end Population.Continues

end EventSheet
