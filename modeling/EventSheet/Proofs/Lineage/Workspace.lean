import EventSheet.Proofs.Lineage.Places
namespace EventSheet.Workspace

/-! # What edits make and destroy

An edit is followed by its account: the nodes it makes, the nodes it destroys, and those that are
in hand while it is under way. Moving makes and destroys nothing. -/

variable {β : Type}

/-- All trees of a workspace. -/
def nodes (workspace : Workspace β) : Forest β :=
  workspace.sheets.flatMap Prod.snd ++ workspace.held.map Prod.snd

def bonds (workspace : Workspace β) : List Bond := Forest.bonds workspace.nodes

/-- No name stands for two sheets or two nodes. -/
structure Distinct (workspace : Workspace β) : Prop where
  sheets : workspace.sheets.Distinct
  held : workspace.held.Distinct

/-- From one workspace to the next trees went from one place to another; those of `taken` went in
from the hand, and those of `given` came into it. -/
structure Moved (before : Workspace β) (taken : List Bond) (after : Workspace β)
    (given : List Bond) : Prop where
  distinct : after.Distinct
  population : after.population = before.population
  same : (before.bonds ++ taken).Perm (after.bonds ++ given)

/-- From one workspace to the next nodes were made and others destroyed; besides, those of `taken`
went in from the hand and those of `given` came into it. -/
structure Change (made destroyed : List Bond) (before : Workspace β) (taken : List Bond)
    (after : Workspace β) (given : List Bond) : Prop where
  distinct : after.Distinct
  exchange : Exchange before.population (before.bonds ++ taken) after.population
    (after.bonds ++ given)
  account : (after.bonds ++ given ++ destroyed).Perm (before.bonds ++ taken ++ made)

namespace Change

variable {before between after : Workspace β} {made destroyed taken middle given : List Bond}

/-- Moving makes and destroys nothing. -/
theorem of_moved (moved : Moved before taken after given) :
    Change [] [] before taken after given where
  distinct := moved.distinct
  exchange := by
    rw [moved.population]
    exact (Exchange.refl _ _).perm (List.Perm.refl _) moved.same
  account := by
    rw [List.append_nil, List.append_nil]
    exact moved.same.symm

theorem refl (distinct : before.Distinct) (hand : List Bond) :
    Change [] [] before hand before hand :=
  of_moved ⟨distinct, rfl, List.Perm.refl _⟩

theorem trans (first : Change made destroyed before taken between middle)
    {more others : List Bond} (second : Change more others between middle after given) :
    Change (made ++ more) (destroyed ++ others) before taken after given where
  distinct := second.distinct
  exchange := first.exchange.trans second.exchange
  account := by
    have one := List.perm_iff_count.mp first.account
    have two := List.perm_iff_count.mp second.account
    rw [List.perm_iff_count]
    intro bond
    have oneBond := one bond
    have twoBond := two bond
    simp only [List.count_append] at oneBond twoBond ⊢
    omega

/-- A change that is followed by moves. -/
theorem trans_moved (change : Change made destroyed before taken between middle)
    (moved : Moved between middle after given) :
    Change made destroyed before taken after given := by
  have both := change.trans (of_moved moved)
  rwa [List.append_nil, List.append_nil] at both

/-- Nodes that stay in hand. -/
theorem frame (change : Change made destroyed before taken after given) (others : List Bond) :
    Change made destroyed before (taken ++ others) after (given ++ others) where
  distinct := change.distinct
  exchange := by
    have framed := change.exchange.frame others
    rwa [List.append_assoc, List.append_assoc] at framed
  account := by
    have account := List.perm_iff_count.mp change.account
    rw [List.perm_iff_count]
    intro bond
    have one := account bond
    simp only [List.count_append] at one ⊢
    omega

/-- The order of what is destroyed and of what is in hand plays no part. -/
theorem perm (change : Change made destroyed before taken after given)
    {others gifts : List Bond} (sameDestroyed : destroyed.Perm others)
    (sameGiven : given.Perm gifts) : Change made others before taken after gifts where
  distinct := change.distinct
  exchange := change.exchange.perm (List.Perm.refl _) (sameGiven.append_left _)
  account := ((sameGiven.append_left _).append sameDestroyed).symm.trans change.account

/-- Nodes made and destroyed without a change of what is where. -/
theorem onPopulation (distinct : before.Distinct) {population : Population}
    (exchange : Exchange before.population taken population given)
    (account : (given ++ destroyed).Perm (taken ++ made)) :
    Change made destroyed before taken { before with population } given where
  distinct := ⟨distinct.sheets, distinct.held⟩
  exchange := exchange.frameLeft _
  account := by
    rw [List.append_assoc, List.append_assoc]
    exact account.append_left _

/-- New nodes come into the hand. -/
theorem make (distinct : before.Distinct) {population : Population}
    (exchange : Exchange before.population [] population given) :
    Change given [] before [] { before with population } given :=
  onPopulation distinct exchange (by rw [List.append_nil, List.nil_append])

theorem destroyForest (distinct : before.Distinct) (forest : Forest β) :
    Change [] (Forest.bonds forest) before (Forest.bonds forest)
      { before with population := (Forest.destroy forest before.population).2 } [] :=
  onPopulation distinct (Exchange.destroyForest forest _) (by simp)

theorem destroyNode (distinct : before.Distinct) (node : Node β) :
    Change [] node.bonds before node.bonds
      { before with population := (node.destroy before.population).2 } [] :=
  onPopulation distinct (Exchange.destroyNode node _) (by simp)

end Change

/-! ## Trees in and out of the hand -/

section

variable {workspace : Workspace β} {name : String}

theorem count_bonds (workspace : Workspace β) (bond : Bond) :
    workspace.bonds.count bond =
      (workspace.sheets.flatMap fun entry => Forest.bonds entry.2).count bond +
        (workspace.held.flatMap fun entry => entry.2.bonds).count bond := by
  rw [bonds, nodes, Forest.bonds_append, List.count_append, Forest.bonds_eq_flatMap,
    Forest.bonds_eq_flatMap, List.flatMap_assoc, List.flatMap_map]
  simp only [← Forest.bonds_eq_flatMap]

theorem count_sheets {sheets others : Named (Forest β)} {forest : Forest β}
    (same : sheets.Perm ((name, forest) :: others)) (bond : Bond) :
    (sheets.flatMap fun entry => Forest.bonds entry.2).count bond =
      (Forest.bonds forest).count bond +
        (others.flatMap fun entry => Forest.bonds entry.2).count bond := by
  rw [(same.flatMap_right _).count_eq, List.flatMap_cons, List.count_append]

theorem count_held {held others : Named (Node β)} {node : Node β}
    (same : held.Perm ((name, node) :: others)) (bond : Bond) :
    (held.flatMap fun entry => entry.2.bonds).count bond =
      node.bonds.count bond + (others.flatMap fun entry => entry.2.bonds).count bond := by
  rw [(same.flatMap_right _).count_eq, List.flatMap_cons, List.count_append]

/-- A sheet comes into the hand. -/
theorem moved_withoutSheet {forest : Forest β} (distinct : workspace.Distinct)
    (found : workspace.sheets.lookup name = some forest) :
    Moved workspace [] { workspace with sheets := workspace.sheets.without name }
      (Forest.bonds forest) := by
  refine ⟨⟨distinct.sheets.without name, distinct.held⟩, rfl, ?_⟩
  rw [List.perm_iff_count]
  intro bond
  simp only [List.count_append, count_bonds, List.count_nil,
    count_sheets (Named.perm_without distinct.sheets found) bond]
  omega

/-- A held node comes into the hand. -/
theorem moved_withoutNode {node : Node β} (distinct : workspace.Distinct)
    (found : workspace.held.lookup name = some node) :
    Moved workspace [] { workspace with held := workspace.held.without name } node.bonds := by
  refine ⟨⟨distinct.sheets, distinct.held.without name⟩, rfl, ?_⟩
  rw [List.perm_iff_count]
  intro bond
  simp only [List.count_append, count_bonds, List.count_nil,
    count_held (Named.perm_without distinct.held found) bond]
  omega

/-- A sheet goes from the hand to a name, and the one that was there comes into it. -/
theorem moved_putSheet (distinct : workspace.Distinct) (forest : Forest β) :
    Moved workspace (Forest.bonds forest)
      { workspace with sheets := workspace.sheets.put name forest }
      (Forest.bonds ((workspace.sheets.lookup name).getD [])) := by
  refine ⟨⟨distinct.sheets.put name forest, distinct.held⟩, rfl, ?_⟩
  rw [List.perm_iff_count]
  intro bond
  simp only [List.count_append, count_bonds, Named.put, List.flatMap_append, List.flatMap_cons,
    List.flatMap_nil, List.append_nil]
  cases found : workspace.sheets.lookup name with
  | none =>
      rw [Named.without_of_missing found, Option.getD_none, Forest.bonds_nil, List.count_nil]
      omega
  | some old =>
      rw [count_sheets (Named.perm_without distinct.sheets found) bond, Option.getD_some]
      omega

/-- A node goes from the hand to a name, and the one that was there comes into it. -/
theorem moved_putNode (distinct : workspace.Distinct) (node : Node β) :
    Moved workspace node.bonds { workspace with held := workspace.held.put name node }
      (Forest.bonds (workspace.held.lookup name).toList) := by
  refine ⟨⟨distinct.sheets, distinct.held.put name node⟩, rfl, ?_⟩
  rw [List.perm_iff_count]
  intro bond
  simp only [List.count_append, count_bonds, Named.put, List.flatMap_append, List.flatMap_cons,
    List.flatMap_nil, List.append_nil]
  cases found : workspace.held.lookup name with
  | none =>
      rw [Named.without_of_missing found, Option.toList_none, Forest.bonds_nil, List.count_nil]
      omega
  | some old =>
      rw [count_held (Named.perm_without distinct.held found) bond, Option.toList_some,
        Forest.bonds_singleton]
      omega

/-- A sheet is changed where it is, which exchanges some of its nodes for others. -/
theorem moved_sheet {old : Forest β} (distinct : workspace.Distinct)
    (found : workspace.sheets.lookup name = some old) (edit : Forest β → Forest β)
    {taken given : List Bond}
    (exchanged : (Forest.bonds (edit old) ++ given).Perm (Forest.bonds old ++ taken)) :
    Moved workspace taken { workspace with sheets := workspace.sheets.change name edit }
      given := by
  refine ⟨⟨distinct.sheets.change name edit, distinct.held⟩, rfl, ?_⟩
  rw [List.perm_iff_count]
  intro bond
  have one := exchanged.count_eq bond
  simp only [List.count_append] at one
  simp only [List.count_append, count_bonds,
    count_sheets (Named.perm_without distinct.sheets found) bond,
    count_sheets (Named.perm_change distinct.sheets found edit) bond]
  omega

theorem moved_held {old : Node β} (distinct : workspace.Distinct)
    (found : workspace.held.lookup name = some old) (edit : Node β → Node β)
    {taken given : List Bond}
    (exchanged : ((edit old).bonds ++ given).Perm (old.bonds ++ taken)) :
    Moved workspace taken { workspace with held := workspace.held.change name edit }
      given := by
  refine ⟨⟨distinct.sheets, distinct.held.change name edit⟩, rfl, ?_⟩
  rw [List.perm_iff_count]
  intro bond
  have one := exchanged.count_eq bond
  simp only [List.count_append] at one
  simp only [List.count_append, count_bonds,
    count_held (Named.perm_without distinct.held found) bond,
    count_held (Named.perm_change distinct.held found edit) bond]
  omega

end

/-! ## Running edits -/

section

variable {α γ : Type} {action : Edit β α} {next : α → Edit β γ} {handler : Astray → Edit β α}
  {before after : Workspace β} {value : α} {astray : Astray}

theorem bind_of_ok (runs : action before = (.ok value, after)) :
    (action >>= next) before = next value after := by
  simp only [bind, ExceptT.bind, ExceptT.mk, StateT.bind, runs]
  rfl

theorem bind_of_error (runs : action before = (.error astray, after)) :
    (action >>= next) before = (.error astray, after) := by
  simp only [bind, ExceptT.bind, ExceptT.mk, StateT.bind, runs]
  rfl

/-- Not looking at the answer of an edit does not change what it does. -/
theorem snd_andReturn (action : Edit β α) (before : Workspace β) :
    ((action >>= fun _ => pure ()) before).2 = (action before).2 := by
  rcases runs : action before with ⟨value | astray, after⟩
  · rw [bind_of_error runs]
  · rw [bind_of_ok runs]
    rfl

theorem map_of_ok {change : α → γ} (runs : action before = (.ok value, after)) :
    (change <$> action) before = (.ok (change value), after) := by
  simp only [Functor.map, ExceptT.map, ExceptT.mk, bind, StateT.bind, runs]
  rfl

theorem map_of_error {change : α → γ} (runs : action before = (.error astray, after)) :
    (change <$> action) before = (.error astray, after) := by
  simp only [Functor.map, ExceptT.map, ExceptT.mk, bind, StateT.bind, runs]
  rfl

theorem tryCatch_of_ok (runs : action before = (.ok value, after)) :
    (tryCatch action handler) before = (.ok value, after) := by
  simp only [tryCatch, tryCatchThe, MonadExceptOf.tryCatch, ExceptT.tryCatch, ExceptT.mk, bind,
    StateT.bind, runs]
  rfl

theorem tryCatch_of_error (runs : action before = (.error astray, after)) :
    (tryCatch action handler) before = handler astray after := by
  simp only [tryCatch, tryCatchThe, MonadExceptOf.tryCatch, ExceptT.tryCatch, ExceptT.mk, bind,
    StateT.bind, runs]

end

theorem onPopulation_run {α : Type} (action : StateM Population α) (workspace : Workspace β) :
    onPopulation action workspace =
      (.ok (action workspace.population).1,
        { workspace with population := (action workspace.population).2 }) := rfl

section

variable {workspace : Workspace β} {name : String}

theorem sheet_of_known {forest : Forest β} (found : workspace.sheets.lookup name = some forest) :
    sheet name workspace = (.ok forest, workspace) := by
  change known name (workspace.sheets.lookup name) workspace = _
  rw [found]
  rfl

theorem sheet_of_unknown (missing : workspace.sheets.lookup name = none) :
    sheet name workspace = (.error (.unknown name), workspace) := by
  change known name (workspace.sheets.lookup name) workspace = _
  rw [missing]
  rfl

theorem heldNode_of_known {node : Node β} (found : workspace.held.lookup name = some node) :
    heldNode name workspace = (.ok node, workspace) := by
  change known name (workspace.held.lookup name) workspace = _
  rw [found]
  rfl

theorem heldNode_of_unknown (missing : workspace.held.lookup name = none) :
    heldNode name workspace = (.error (.unknown name), workspace) := by
  change known name (workspace.held.lookup name) workspace = _
  rw [missing]
  rfl

theorem takeSheet_of_known {forest : Forest β}
    (found : workspace.sheets.lookup name = some forest) :
    takeSheet name workspace =
      (.ok forest, { workspace with sheets := workspace.sheets.without name }) := by
  rw [takeSheet, bind_of_ok (sheet_of_known found)]
  rfl

theorem takeSheet_of_unknown (missing : workspace.sheets.lookup name = none) :
    takeSheet name workspace = (.error (.unknown name), workspace) :=
  bind_of_error (sheet_of_unknown missing)

theorem takeNode_of_known {node : Node β} (found : workspace.held.lookup name = some node) :
    takeNode name workspace =
      (.ok node, { workspace with held := workspace.held.without name }) := by
  rw [takeNode, bind_of_ok (heldNode_of_known found)]
  rfl

theorem takeNode_of_unknown (missing : workspace.held.lookup name = none) :
    takeNode name workspace = (.error (.unknown name), workspace) :=
  bind_of_error (heldNode_of_unknown missing)

/-! ## Storing and dropping -/

/-- Storing a sheet destroys the one under its name. -/
theorem storeSheet_change (distinct : workspace.Distinct) (name : String) (forest : Forest β) :
    Change [] (Forest.bonds ((workspace.sheets.lookup name).getD [])) workspace
      (Forest.bonds forest) (storeSheet name forest workspace).2 [] :=
  (Change.of_moved (moved_putSheet distinct forest)).trans
    (Change.destroyForest (moved_putSheet distinct forest).distinct _)

theorem storeNode_change (distinct : workspace.Distinct) (name : String) (node : Node β) :
    Change [] (Forest.bonds (workspace.held.lookup name).toList) workspace node.bonds
      (storeNode name node workspace).2 [] :=
  (Change.of_moved (moved_putNode distinct node)).trans
    (Change.destroyForest (moved_putNode distinct node).distinct _)

/-- The trees at a root. -/
def treesAt (workspace : Workspace β) : Root → Forest β
  | .sheet name => (workspace.sheets.lookup name).getD []
  | .held name => (workspace.held.lookup name).toList

/-- Dropping destroys the trees at the root. -/
theorem drop_change (distinct : workspace.Distinct) (root : Root) :
    Change [] (Forest.bonds (workspace.treesAt root)) workspace []
      (drop root workspace).2 [] := by
  cases root with
  | sheet name =>
      rw [treesAt]
      cases found : workspace.sheets.lookup name with
      | none =>
          rw [drop, bind_of_error (takeSheet_of_unknown found)]
          exact Change.refl distinct []
      | some forest =>
          rw [drop, bind_of_ok (takeSheet_of_known found)]
          have taken := Change.of_moved (moved_withoutSheet distinct found)
          exact taken.trans (Change.destroyForest taken.distinct forest)
  | held name =>
      rw [treesAt]
      cases found : workspace.held.lookup name with
      | none =>
          rw [drop, bind_of_error (takeNode_of_unknown found)]
          exact Change.refl distinct []
      | some node =>
          rw [drop, bind_of_ok (takeNode_of_known found), Option.toList_some,
            Forest.bonds_singleton]
          have taken := Change.of_moved (moved_withoutNode distinct found)
          exact taken.trans (Change.destroyNode taken.distinct node)

end

/-! ## Taking several nodes -/

theorem takeNodes_cons_of_ok {workspace after : Workspace β} {name : String}
    {rest : List String} {node : Node β} {nodes : Forest β}
    (found : workspace.held.lookup name = some node)
    (further : takeNodes rest { workspace with held := workspace.held.without name } =
      (.ok nodes, after)) :
    takeNodes (name :: rest) workspace = (.ok (node :: nodes), after) := by
  rw [takeNodes, bind_of_ok (takeNode_of_known found)]
  simp only [bind, ExceptT.bind, ExceptT.mk, StateT.bind, further, tryCatch, tryCatchThe,
    MonadExceptOf.tryCatch, ExceptT.tryCatch]
  rfl

theorem takeNodes_cons_of_error {workspace after : Workspace β} {name : String}
    {rest : List String} {node : Node β} {astray : Astray}
    (found : workspace.held.lookup name = some node)
    (further : takeNodes rest { workspace with held := workspace.held.without name } =
      (.error astray, after)) :
    takeNodes (name :: rest) workspace =
      (.error astray, { after with population := (node.destroy after.population).2 }) := by
  rw [takeNodes, bind_of_ok (takeNode_of_known found)]
  simp only [bind, ExceptT.bind, ExceptT.mk, StateT.bind, further, tryCatch, tryCatchThe,
    MonadExceptOf.tryCatch, ExceptT.tryCatch]
  rfl

/-- Nodes that are known come into the hand; when a name is unknown, those before it are
destroyed. -/
theorem takeNodes_change : ∀ (names : List String) (workspace : Workspace β),
    workspace.Distinct →
      match Named.takeAll names workspace.held with
      | (nodes, some left) =>
          takeNodes names workspace = (.ok nodes, { workspace with held := left }) ∧
            Change [] [] workspace [] { workspace with held := left } (Forest.bonds nodes)
      | (nodes, none) => ∃ astray after, takeNodes names workspace = (.error astray, after) ∧
          Change [] (Forest.bonds nodes) workspace [] after [] := by
  intro names
  induction names with
  | nil =>
      intro workspace distinct
      exact ⟨rfl, Change.refl distinct []⟩
  | cons name rest induction =>
      intro workspace distinct
      rw [Named.takeAll]
      cases found : workspace.held.lookup name with
      | none =>
          refine ⟨_, _, bind_of_error (takeNode_of_unknown found), Change.refl distinct []⟩
      | some node =>
          have taken := Change.of_moved (moved_withoutNode distinct found)
          have further := induction _ taken.distinct
          rcases outcome : Named.takeAll rest (workspace.held.without name) with ⟨nodes, left?⟩
          rw [outcome] at further
          cases left? with
          | some left =>
              refine ⟨takeNodes_cons_of_ok found further.1, ?_⟩
              rw [Forest.bonds_cons]
              have both := taken.trans (further.2.frame node.bonds)
              exact both.perm (List.Perm.refl _) List.perm_append_comm
          | none =>
              rcases further with ⟨astray, after, runs, change⟩
              refine ⟨astray, _, takeNodes_cons_of_error found runs, ?_⟩
              rw [Forest.bonds_cons]
              have both := taken.trans ((change.frame node.bonds).trans
                (Change.destroyNode change.distinct node))
              have swapped : (Forest.bonds nodes ++ node.bonds).Perm
                  (node.bonds ++ Forest.bonds nodes) := List.perm_append_comm
              exact both.perm swapped (List.Perm.refl _)

/-! ## New nodes -/

section

variable [EventKind β]

/-- A node takes in the nodes it owns, and the others are destroyed. -/
theorem withSubEvents_cases (node : Node β) (children : Forest β) (population : Population) :
    (node.ownsSubEvents = true ∧ node.withSubEvents children population =
      ({ node with subEvents := node.subEvents ++ children }, population)) ∨
    (node.ownsSubEvents = false ∧ node.withSubEvents children population =
      (node, (Forest.destroy children population).2)) := by
  rw [Node.withSubEvents, Node.editSubEvents?]
  cases owns : node.ownsSubEvents with
  | true => exact .inl ⟨rfl, rfl⟩
  | false => exact .inr ⟨rfl, rfl⟩

/-- A new node takes in known nodes; it is destroyed when one of them is unknown. -/
theorem assemble_change (behavior : β) (names : List String) {workspace : Workspace β}
    (distinct : workspace.Distinct) :
    match Named.takeAll names workspace.held with
    | (children, some left) => ∃ node population,
        assemble behavior names workspace =
            (.ok node, { workspace with population, held := left }) ∧
          Change [(workspace.population.nextId, none)]
            (if EventKind.ownsSubEvents behavior then [] else Forest.bonds children) workspace []
            { workspace with population, held := left } node.bonds
    | (children, none) => ∃ astray after,
        assemble behavior names workspace = (.error astray, after) ∧
          Change [(workspace.population.nextId, none)]
            (Forest.bonds children ++ [(workspace.population.nextId, none)]) workspace []
            after [] := by
  rcases enrolled : Node.create behavior workspace.population with ⟨node, population⟩
  have new : node.bonds = [(workspace.population.nextId, none)] := by
    cases enrolled
    rfl
  have kind : node.ownsSubEvents = EventKind.ownsSubEvents behavior := by
    cases enrolled
    rfl
  have made : Change [(workspace.population.nextId, none)] [] workspace []
      { workspace with population } node.bonds := by
    have exchange := Exchange.create behavior workspace.population
    rw [enrolled] at exchange
    apply Change.onPopulation distinct exchange
    rw [new]
    exact List.Perm.refl _
  have runs : onPopulation (Node.create behavior) workspace =
      (.ok node, { workspace with population }) := by
    rw [onPopulation_run, enrolled]
  have further := takeNodes_change names _ made.distinct
  rw [assemble, bind_of_ok runs]
  rcases outcome : Named.takeAll names workspace.held with ⟨children, left?⟩
  rw [outcome] at further
  cases left? with
  | some left =>
      rcases further with ⟨takes, taken⟩
      have inHand := made.trans (taken.frame node.bonds)
      rcases withSubEvents_cases node children population with ⟨owns, built⟩ | ⟨owns, built⟩
      · refine ⟨{ node with subEvents := node.subEvents ++ children }, population, ?_, ?_⟩
        · apply tryCatch_of_ok
          rw [bind_of_ok takes, onPopulation_run, built]
        · rw [if_pos (kind.symm.trans owns)]
          apply inHand.perm (List.Perm.refl _)
          rw [Node.bonds_takingIn]
          exact List.perm_append_comm
      · refine ⟨node, (Forest.destroy children population).2, ?_, ?_⟩
        · apply tryCatch_of_ok
          rw [bind_of_ok takes, onPopulation_run, built]
        · rw [if_neg (by rw [← kind, owns]; exact Bool.false_ne_true)]
          have destroyed := (Change.destroyForest taken.distinct children).frame node.bonds
          exact inHand.trans destroyed
  | none =>
      rcases further with ⟨astray, after, takes, taken⟩
      have destroyed := (taken.frame node.bonds).trans
        (Change.destroyNode taken.distinct node)
      refine ⟨astray, _, tryCatch_of_error (bind_of_error takes), ?_⟩
      have whole := made.trans destroyed
      rw [new] at whole
      exact whole

end

end EventSheet.Workspace
