import EventSheet.Proofs.Lineage.Undisturbed
namespace EventSheet

/-! # Clones

A clone is its source over again, position by position, with new nodes that start with the samples
of theirs. From then on the two are independent: neither changes when something is done to the
other. -/

variable {β : Type}

/-! ## Exact copies -/

mutual
/-- The tree is its source over again, but for the ids: each node is what its source was, and has
the sample its source had. -/
def Node.ClonedFrom (before after : Population) : Node β → Node β → Prop
  | ⟨copy, copies⟩, ⟨source, subEvents⟩ =>
      copy = { source with id := copy.id } ∧ after.sample copy.id = before.sample source.id ∧
        Forest.ClonedFrom before after copies subEvents

def Forest.ClonedFrom (before after : Population) : List (Node β) → List (Node β) → Prop
  | [], [] => True
  | copy :: copies, source :: sources =>
      copy.ClonedFrom before after source ∧ Forest.ClonedFrom before after copies sources
  | _, _ => False
end

mutual
theorem Node.clonedFrom_copy (before : Population) {after : Population} : ∀ (node : Node β)
    {population : Population}, before.Continues population →
      (∀ id ∈ node.ids, id < before.nextId) →
      (node.copy Event.remembered population).2.Continues after →
      (node.copy Event.remembered population).1.ClonedFrom before after node
  | ⟨event, subEvents⟩, population, earlier, made, later => by
      rw [Node.ids, List.forall_mem_cons] at made
      have enrolled := Population.Continues.enroll population (population.sample event.id)
      have copied := (Population.Continues.copyForest Event.remembered subEvents
        (event.copy Event.remembered population).2).trans later
      refine ⟨rfl, ?_,
        Forest.clonedFrom_copy before subEvents (earlier.trans enrolled) made.2 later⟩
      have isMade : population.nextId < (event.copy Event.remembered population).2.nextId :=
        Nat.lt_of_lt_of_eq (Nat.lt_succ_self _) (Population.nextId_enroll _ _).symm
      have start : (event.copy Event.remembered population).2.sample population.nextId =
          population.sample event.id := by
        change (Population.enroll (population.sample event.id) population).2.sample _ = _
        rw [Population.sample, Population.identity?_enroll, if_pos rfl]
      exact (copied.sample _ isMade).trans (start.trans (earlier.sample _ made.1))

theorem Forest.clonedFrom_copy (before : Population) {after : Population} :
    ∀ (forest : List (Node β)) {population : Population}, before.Continues population →
      (∀ id ∈ Forest.ids forest, id < before.nextId) →
      (Forest.copy Event.remembered forest population).2.Continues after →
      Forest.ClonedFrom before after (Forest.copy Event.remembered forest population).1 forest
  | [], _, _, _, _ => trivial
  | head :: tail, population, earlier, made, later => by
      rw [Forest.ids, List.forall_mem_append] at made
      have first := Population.Continues.copyNode Event.remembered head population
      have rest := Population.Continues.copyForest Event.remembered tail
        (head.copy Event.remembered population).2
      exact ⟨head.clonedFrom_copy before earlier made.1 (rest.trans later),
        Forest.clonedFrom_copy before tail (earlier.trans first) made.2 later⟩
end

namespace Workspace

variable {workspace : Workspace β}

theorem mem_nodes_of_treesAt {root : Root} {tree : Node β}
    (isTree : tree ∈ workspace.treesAt root) : tree ∈ workspace.nodes := by
  cases root with
  | sheet name =>
      rw [treesAt] at isTree
      cases found : workspace.sheets.lookup name with
      | none =>
          rw [found] at isTree
          exact absurd isTree List.not_mem_nil
      | some forest =>
          rw [found] at isTree
          rcases List.lookup_eq_some_iff.mp found with ⟨before, behind, split, _⟩
          apply List.mem_append_left
          exact List.mem_flatMap.mpr
            ⟨(name, forest), split ▸ List.mem_append_right _ List.mem_cons_self, isTree⟩
  | held name =>
      rw [treesAt, Option.mem_toList] at isTree
      rcases List.lookup_eq_some_iff.mp isTree with ⟨before, behind, split, _⟩
      apply List.mem_append_right
      exact List.mem_map_of_mem (f := Prod.snd)
        (split ▸ List.mem_append_right before List.mem_cons_self)

theorem treesAt_storeNode (name : String) (node : Node β) :
    (storeNode name node workspace).2.treesAt (.held name) = [node] := by
  change ((workspace.held.put name node).lookup name).toList = [node]
  rw [Named.lookup_put_self]
  rfl

theorem treesAt_storeSheet (name : String) (forest : Forest β) :
    (storeSheet name forest workspace).2.treesAt (.sheet name) = forest := by
  change ((workspace.sheets.put name forest).lookup name).getD [] = forest
  rw [Named.lookup_put_self]
  rfl

end Workspace

namespace Session

open Workspace

variable [Behavior β]

/-- In a session that an operation led to, a forest is a clone of what is at an address. From then
on each of the two stays what it is while nothing is done to its own nodes, and is where it is
while its name is not used. -/
structure Cloned (before : Session β) (operation : Operation β) (address : Address)
    (source : Forest β) (cloned : Session β) (target : Root) (copy : Forest β) : Prop where
  stored : cloned.workspace.treesAt target = copy
  same : Forest.ClonedFrom before.population cloned.population copy source
  fresh : ∀ id ∈ Forest.ids copy, before.population.nextId ≤ id ∧ id ∉ Forest.ids source
  alive : ∀ id ∈ Forest.ids copy, cloned.population.isAlive id = true
  copyStays : ∀ later : List (Operation β), cloned.LeavesAlone (Forest.ids copy) later →
    ∀ tree ∈ copy, cloned.Stays (later.foldl perform cloned) tree
  sourceStays : ∀ later : List (Operation β),
    before.LeavesAlone (Forest.ids source) (operation :: later) →
      ∀ tree ∈ source, before.Stays (later.foldl perform cloned) tree
  copyThere : ∀ later : List (Operation β),
    (∀ other ∈ later, other.isPass = false ∧ target ∉ other.roots) →
      (later.foldl perform cloned).workspace.treesAt target = copy
  sourceThere : ∀ later : List (Operation β),
    (∀ other ∈ operation :: later, other.isPass = false ∧ address.root ∉ other.roots) →
      SameRoot address before.workspace (later.foldl perform cloned).workspace

theorem LeavesAlone.mono {ids others : List NodeId} (subset : others ⊆ ids) :
    ∀ {later : List (Operation β)} {session : Session β}, session.LeavesAlone ids later →
      session.LeavesAlone others later
  | [], _, _ => trivial
  | _ :: _, _, leavesAlone =>
      ⟨leavesAlone.1, fun id isTouched isOther => leavesAlone.2.1 id isTouched (subset isOther),
        leavesAlone.2.2.mono subset⟩

/-- Trees of a forest stay what they are as long as the forest is left alone. -/
theorem all_stay (keeps : Behavior.KeepsAccounts β) {session : Session β} (kept : session.WellKept)
    {forest : Forest β} (isInside : ∀ tree ∈ forest, tree ∈ Forest.subtrees session.workspace.nodes)
    {later : List (Operation β)} (leavesAlone : session.LeavesAlone (Forest.ids forest) later) :
    ∀ tree ∈ forest, session.Stays (later.foldl perform session) tree := by
  intro tree isTree
  apply stays_foldl keeps later kept (isInside tree isTree)
  exact leavesAlone.mono (Forest.ids_subset (Forest.mem_subtrees_of_mem isTree))

theorem workspace_cloneNode {session : Session β} {address : Address} {source : Node β}
    (found : session.workspace.nodeAt? address = some source) (target : String) :
    (session.perform (.cloneNode address false target)).workspace =
      (storeNode target (source.copy Event.remembered session.population).1
        { session.workspace with
          population := (source.copy Event.remembered session.population).2 }).2 := by
  change ((Operation.cloneNode address false target).edit session.workspace).2 = _
  rw [Operation.edit, bind_of_ok (nodeAt_of_some found), bind_of_ok (onPopulation_run _ _),
    if_neg Bool.false_ne_true, Node.clone_eq_copy]
  rfl

theorem workspace_cloneForest {session : Session β} {address : Address} {source : Forest β}
    (found : session.workspace.forestAt? address = some source) (target : String) :
    (session.perform (.cloneForest address false target)).workspace =
      (storeSheet target (Forest.copy Event.remembered source session.population).1
        { session.workspace with
          population := (Forest.copy Event.remembered source session.population).2 }).2 := by
  change ((Operation.cloneForest address false target).edit session.workspace).2 = _
  rw [Operation.edit, bind_of_ok (forestAt_of_some found), bind_of_ok (onPopulation_run _ _),
    if_neg Bool.false_ne_true, Forest.clone_eq_copy]
  rfl

/-- Storing a copy makes it a clone. -/
theorem cloned_of_stored (keeps : Behavior.KeepsAccounts β) {session : Session β}
    (kept : session.WellKept) {operation : Operation β} {address : Address} {source : Forest β}
    {target : Root} {copy : Forest β}
    (isInside : ∀ tree ∈ source, tree ∈ Forest.subtrees session.workspace.nodes)
    (copied : (Forest.copy Event.remembered source session.population).1 = copy)
    (stored : (session.perform operation).workspace.treesAt target = copy)
    (continues : (Forest.copy Event.remembered source session.population).2.Continues
      (session.perform operation).population) :
    Cloned session operation address source (session.perform operation) target copy := by
  have made : ∀ id ∈ Forest.ids source, id < session.population.nextId :=
    fun _ isId => kept.lt_nextId (Forest.ids_subset_of_forall isInside isId)
  have isCopy : ∀ tree ∈ copy,
      tree ∈ Forest.subtrees (session.perform operation).workspace.nodes := by
    intro tree isTree
    exact Forest.mem_subtrees_of_mem (mem_nodes_of_treesAt (stored ▸ isTree))
  have keptAfter := kept.perform keeps operation
  refine ⟨stored, ?_, ?_, ?_, ?_, ?_, ?_, ?_⟩
  · rw [← copied]
    exact Forest.clonedFrom_copy session.population source (.refl _) made continues
  · intro id isId
    rw [← copied, Forest.ids_copy, List.mem_range'_1] at isId
    exact ⟨isId.1, fun isSource => Nat.not_le_of_lt (made id isSource) isId.1⟩
  · intro id isId
    rw [keptAfter.isAlive_iff]
    exact Forest.ids_subset_of_forall isCopy isId
  · exact fun later leavesAlone => all_stay keeps keptAfter isCopy leavesAlone
  · exact fun later leavesAlone => all_stay keeps kept isInside leavesAlone
  · intro later elsewhere
    rw [← stored]
    exact (sameRoot_foldl ⟨target, []⟩ later _ elsewhere).treesAt_eq
  · exact fun later elsewhere => sameRoot_foldl address (operation :: later) session elsewhere

/-- Whatever was done, cloning the node or the forest at an address gives an exact copy, made like
one by recursion, and the two are independent. -/
theorem clone_exact_independent (keeps : Behavior.KeepsAccounts β) (history : List (Operation β))
    (address : Address) (target : String) :
    (∀ node : Node β, node.clone = node.copy Event.remembered) ∧
      (∀ forest : Forest β, Forest.clone forest = Forest.copy Event.remembered forest) ∧
      (∀ source, (after history).workspace.nodeAt? address = some source →
        ∃ copy, Cloned (after history) (.cloneNode address false target) address [source]
          (after (history ++ [.cloneNode address false target])) (.held target) [copy]) ∧
      ∀ source, (after history).workspace.forestAt? address = some source →
        ∃ copy, Cloned (after history) (.cloneForest address false target) address source
          (after (history ++ [.cloneForest address false target])) (.sheet target) copy := by
  have kept : (after history).WellKept := (wellKept_foldl keeps history {} wellKept_empty).1
  have tended := tended_subtrees kept
  refine ⟨Node.clone_eq_copy, Forest.clone_eq_copy, ?_, ?_⟩
  · intro source found
    rw [after_append]
    have isInside := tended.nodeAt? found source (Forest.mem_subtrees_of_mem List.mem_cons_self)
    refine ⟨_, cloned_of_stored keeps kept (List.forall_mem_singleton.mpr isInside) rfl ?_ ?_⟩
    · exact (congrArg (treesAt · _) (workspace_cloneNode found target)).trans
        (treesAt_storeNode target _)
    · change Population.Continues _ (perform _ _).workspace.population
      rw [workspace_cloneNode found target]
      exact .destroyForest _ _
  · intro source found
    rw [after_append]
    have isInside := fun tree isTree =>
      tended.forestAt? found tree (Forest.mem_subtrees_of_mem isTree)
    refine ⟨_, cloned_of_stored keeps kept isInside rfl ?_ ?_⟩
    · exact (congrArg (treesAt · _) (workspace_cloneForest found target)).trans
        (treesAt_storeSheet target _)
    · change Population.Continues _ (perform _ _).workspace.population
      rw [workspace_cloneForest found target]
      exact .destroyForest _ _

/-- A song with a sample published for its verse. -/
def performance : List (Operation Kind.Builtin) :=
  [.build (.standard { actions := [{ name := "sing" }] }) [] "verse",
    .gather ["verse"] "song",
    .takeHandle ⟨.sheet "song", [0]⟩ "verse",
    .publish "verse" { percent := ⟨0x7FC00000⟩ }]

/-- The cover stays when the song is gone. -/
theorem clone_independent_performance :
    Behavior.KeepsAccounts Kind.Builtin ∧ ∃ source copy,
      (after performance).workspace.forestAt? ⟨.sheet "song", []⟩ = some source ∧
        Forest.ids source = [1] ∧ Forest.ids copy = [2] ∧
        Cloned (after performance) (.cloneForest ⟨.sheet "song", []⟩ false "cover")
          ⟨.sheet "song", []⟩ source
          (after (performance ++ [.cloneForest ⟨.sheet "song", []⟩ false "cover"]))
          (.sheet "cover") copy ∧
        ∀ tree ∈ copy,
          (after (performance ++ [.cloneForest ⟨.sheet "song", []⟩ false "cover"])).Stays
            (after (performance ++ [.cloneForest ⟨.sheet "song", []⟩ false "cover"] ++
              [.drop (.sheet "song")])) tree := by
  have found : (after performance).workspace.forestAt? ⟨.sheet "song", []⟩ =
      some [{ event := { id := 1, behavior := .standard { actions := [{ name := "sing" }] } } }] :=
    rfl
  rcases (clone_exact_independent Kind.Builtin.keepsAccounts performance ⟨.sheet "song", []⟩
    "cover").2.2.2 _ found with ⟨copy, cloned⟩
  have stored := workspace_cloneForest found "cover"
  have ids : Forest.ids copy = [2] := by
    rw [← cloned.stored, after_append, List.foldl_cons, List.foldl_nil, stored]
    rfl
  refine ⟨Kind.Builtin.keepsAccounts, _, copy, found, rfl, ids, cloned, ?_⟩
  rw [after_append (performance ++ _)]
  apply cloned.copyStays
  rw [ids]
  refine ⟨rfl, ?_, trivial⟩
  have touched : (after (performance ++ [.cloneForest ⟨.sheet "song", []⟩ false "cover"])).touched
      (.drop (.sheet "song")) = [1] := by
    rw [after_append, List.foldl_cons, List.foldl_nil, touched, stored]
    rfl
  rw [touched]
  decide

end Session

end EventSheet
