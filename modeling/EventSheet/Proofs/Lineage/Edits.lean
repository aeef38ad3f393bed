import EventSheet.Proofs.Lineage.Workspace
namespace EventSheet.Workspace

/-! # Edits at an address

What an edit of the forest at an address takes out of it and puts into it is exchanged in the
workspace; everything else stays where it is. -/

variable {β : Type} {workspace : Workspace β} {address : Address}

/-! ## What is at an address -/

def nodeAt? (workspace : Workspace β) (address : Address) : Option (Node β) :=
  match address.root with
  | .sheet name => (workspace.sheets.lookup name).bind (Forest.atPlace? address.place)
  | .held name => (workspace.held.lookup name).bind (Node.atPlace? address.place)

def forestAt? (workspace : Workspace β) (address : Address) : Option (Forest β) :=
  match address with
  | ⟨.sheet name, []⟩ => workspace.sheets.lookup name
  | _ => (workspace.nodeAt? address).map Node.subEvents

theorem nodeAt_of_some {node : Node β} (found : workspace.nodeAt? address = some node) :
    nodeAt address workspace = (.ok node, workspace) := by
  rcases address with ⟨root, place⟩
  cases root with
  | sheet name =>
      rw [nodeAt?, Option.bind_eq_some_iff] at found
      rcases found with ⟨forest, isSheet, isNode⟩
      cases place with
      | nil => cases isNode
      | cons position rest =>
          simp only [nodeAt]
          rw [bind_of_ok (map_of_ok (sheet_of_known isSheet)), isNode]
          rfl
  | held name =>
      rw [nodeAt?, Option.bind_eq_some_iff] at found
      rcases found with ⟨tree, isHeld, isNode⟩
      simp only [nodeAt]
      rw [bind_of_ok (map_of_ok (heldNode_of_known isHeld)), isNode]
      rfl

theorem nodeAt_of_none (missing : workspace.nodeAt? address = none) :
    ∃ astray, nodeAt address workspace = (.error astray, workspace) := by
  rcases address with ⟨root, place⟩
  cases root with
  | sheet name =>
      cases place with
      | nil => exact ⟨_, rfl⟩
      | cons position rest =>
          simp only [nodeAt]
          cases isSheet : workspace.sheets.lookup name with
          | none => exact ⟨_, bind_of_error (map_of_error (sheet_of_unknown isSheet))⟩
          | some forest =>
              simp only [nodeAt?, isSheet, Option.bind_some] at missing
              rw [bind_of_ok (map_of_ok (sheet_of_known isSheet)), missing]
              exact ⟨_, rfl⟩
  | held name =>
      simp only [nodeAt]
      cases isHeld : workspace.held.lookup name with
      | none => exact ⟨_, bind_of_error (map_of_error (heldNode_of_unknown isHeld))⟩
      | some tree =>
          simp only [nodeAt?, isHeld, Option.bind_some] at missing
          rw [bind_of_ok (map_of_ok (heldNode_of_known isHeld)), missing]
          exact ⟨_, rfl⟩

theorem forestAt_of_some {forest : Forest β} (found : workspace.forestAt? address = some forest) :
    forestAt address workspace = (.ok forest, workspace) := by
  unfold forestAt
  split
  · exact sheet_of_known found
  · next notSheet =>
      rw [forestAt?] at found
      · rw [Option.map_eq_some_iff] at found
        rcases found with ⟨node, isNode, rfl⟩
        rw [bind_of_ok (nodeAt_of_some isNode)]
        rfl
      · exact notSheet

theorem forestAt_of_none (missing : workspace.forestAt? address = none) :
    ∃ astray, forestAt address workspace = (.error astray, workspace) := by
  unfold forestAt
  split
  · exact ⟨_, sheet_of_unknown missing⟩
  · next notSheet =>
      rw [forestAt?] at missing
      · rw [Option.map_eq_none_iff] at missing
        rcases nodeAt_of_none missing with ⟨astray, runs⟩
        exact ⟨astray, bind_of_error runs⟩
      · exact notSheet

/-- A node is put where another was found. -/
theorem setNodeAt_moved (distinct : workspace.Distinct) {old : Node β}
    (found : workspace.nodeAt? address = some old) {new : Node β} {taken given : List Bond}
    (exchanged : (new.bonds ++ given).Perm (old.bonds ++ taken)) :
    ∃ after, setNodeAt address new workspace = (.ok (), after) ∧
      Moved workspace taken after given := by
  rcases address with ⟨root, place⟩
  refine ⟨_, rfl, ?_⟩
  cases root with
  | sheet name =>
      rw [nodeAt?, Option.bind_eq_some_iff] at found
      rcases found with ⟨forest, isSheet, isNode⟩
      exact moved_sheet distinct isSheet _ (Forest.bonds_modifyAt exchanged isNode)
  | held name =>
      rw [nodeAt?, Option.bind_eq_some_iff] at found
      rcases found with ⟨tree, isHeld, isNode⟩
      exact moved_held distinct isHeld _ (Node.bonds_modifyAt exchanged place tree isNode)

/-! ## Editing a forest -/

section

variable [EventKind β]

/-- The forest at an address, unless it would be the sub-events of a node that has none. -/
def editable? (workspace : Workspace β) (address : Address) : Option (Forest β) :=
  match address with
  | ⟨.sheet name, []⟩ => workspace.sheets.lookup name
  | _ => ((workspace.nodeAt? address).filter Node.ownsSubEvents).map Node.subEvents

/-- Two workspaces have the same tree under the name an address starts from. -/
def SameRoot (address : Address) (before after : Workspace β) : Prop :=
  match address.root with
  | .sheet name => after.sheets.lookup name = before.sheets.lookup name
  | .held name => after.held.lookup name = before.held.lookup name

omit [EventKind β] in
theorem SameRoot.nodeAt?_eq {before after : Workspace β} (same : SameRoot address before after) :
    after.nodeAt? address = before.nodeAt? address := by
  rcases address with ⟨root, place⟩
  cases root with
  | sheet name => exact congrArg (Option.bind · _) same
  | held name => exact congrArg (Option.bind · _) same

variable {α : Type} {edit : Forest β → Edit β (α × Forest β)}

theorem editForest?_of_none (missing : workspace.editable? address = none) :
    ∃ result, editForest? address edit workspace = (result, workspace) ∧
      ∀ answer, result ≠ .ok (some answer) := by
  unfold editForest?
  split
  · exact ⟨_, bind_of_error (sheet_of_unknown missing), by rintro _ ⟨⟩⟩
  · next notSheet =>
      rw [editable?] at missing
      · cases isNode : workspace.nodeAt? address with
        | none =>
            rcases nodeAt_of_none isNode with ⟨astray, runs⟩
            exact ⟨_, bind_of_error runs, by rintro _ ⟨⟩⟩
        | some node =>
            rw [isNode, Option.map_eq_none_iff, Option.filter_eq_none_iff] at missing
            rw [bind_of_ok (nodeAt_of_some isNode), if_neg (missing node rfl)]
            exact ⟨_, rfl, by rintro _ ⟨⟩⟩
      · exact notSheet

theorem editForest?_of_error {forest : Forest β} {after : Workspace β} {astray : Astray}
    (found : workspace.editable? address = some forest)
    (runs : edit forest workspace = (.error astray, after)) :
    editForest? address edit workspace = (.error astray, after) := by
  unfold editForest?
  split
  · rw [bind_of_ok (sheet_of_known found), bind_of_error runs]
  · next notSheet =>
      rw [editable?] at found
      · rw [Option.map_eq_some_iff] at found
        rcases found with ⟨node, isOwner, rfl⟩
        rw [Option.filter_eq_some_iff] at isOwner
        rw [bind_of_ok (nodeAt_of_some isOwner.1), if_pos isOwner.2, bind_of_error runs]
      · exact notSheet

/-- The new forest goes in for the old one. -/
theorem editForest?_of_ok {forest new : Forest β} {after : Workspace β} {answer : α}
    {taken given : List Bond} (distinct : after.Distinct)
    (found : workspace.editable? address = some forest)
    (runs : edit forest workspace = (.ok (answer, new), after))
    (same : SameRoot address workspace after)
    (exchanged : (Forest.bonds new ++ given).Perm (Forest.bonds forest ++ taken)) :
    ∃ final, editForest? address edit workspace = (.ok (some answer), final) ∧
      Moved after taken final given := by
  unfold editForest?
  split
  · refine ⟨_, ?_, moved_sheet distinct (same.trans found) (fun _ => new) exchanged⟩
    rw [bind_of_ok (sheet_of_known found), bind_of_ok runs]
    rfl
  · next notSheet =>
      rw [editable?] at found
      · rw [Option.map_eq_some_iff] at found
        rcases found with ⟨node, isOwner, rfl⟩
        rw [Option.filter_eq_some_iff] at isOwner
        have inside : (({ node with subEvents := new } : Node β).bonds ++ given).Perm
            (node.bonds ++ taken) := by
          rw [Node.bonds_eq, Node.bonds_eq node]
          exact exchanged.cons _
        rcases setNodeAt_moved distinct (same.nodeAt?_eq.trans isOwner.1) inside with
          ⟨final, sets, moved⟩
        refine ⟨final, ?_, moved⟩
        rw [bind_of_ok (nodeAt_of_some isOwner.1), if_pos isOwner.2, bind_of_ok runs]
        exact bind_of_ok sets
      · exact notSheet

end

/-! ## Moving nodes -/

section

variable {name : String} {node : Node β}

/-- A node goes into the hand to be put below an address. -/
theorem takeFor_of_ok (found : workspace.held.lookup name = some node)
    (elsewhere : address.root ≠ .held name) :
    takeFor name address workspace =
      (.ok node, { workspace with held := workspace.held.without name }) := by
  rw [takeFor, bind_of_ok (takeNode_of_known found), if_neg elsewhere]
  rfl

/-- A node cannot go below itself and is destroyed. -/
theorem takeFor_of_self (found : workspace.held.lookup name = some node)
    (inside : address.root = .held name) :
    takeFor name address workspace = (.error (.unknown name),
      { workspace with
        population := (node.destroy workspace.population).2
        held := workspace.held.without name }) := by
  rw [takeFor, bind_of_ok (takeNode_of_known found), if_pos inside]
  rfl

theorem takeFor_of_unknown (missing : workspace.held.lookup name = none) :
    takeFor name address workspace = (.error (.unknown name), workspace) := by
  rw [takeFor, bind_of_error (takeNode_of_unknown missing)]

theorem sameRoot_withoutNode (elsewhere : address.root ≠ .held name) :
    SameRoot address workspace { workspace with held := workspace.held.without name } := by
  rcases address with ⟨root, place⟩
  cases root with
  | sheet other => rfl
  | held other =>
      apply Named.lookup_without_of_ne
      rintro rfl
      exact elsewhere rfl

/-- What is lost when a held node is moved to an address: the node itself when the address is
inside of it. -/
def lostInMoving (workspace : Workspace β) (name : String) (address : Address) : Forest β :=
  if address.root = .held name then (workspace.held.lookup name).toList else []

/-- The ways taking a node for an address can end. -/
theorem takeFor_cases (distinct : workspace.Distinct) (name : String) (address : Address) :
    (∃ astray after, takeFor name address workspace = (.error astray, after) ∧
      Change [] (Forest.bonds (workspace.lostInMoving name address)) workspace [] after []) ∨
    ∃ node after, takeFor name address workspace = (.ok node, after) ∧
      workspace.lostInMoving name address = [] ∧ SameRoot address workspace after ∧
      after.held.lookup name = none ∧ Change [] [] workspace [] after node.bonds := by
  rw [lostInMoving]
  cases found : workspace.held.lookup name with
  | none =>
      refine .inl ⟨_, _, takeFor_of_unknown found, ?_⟩
      rw [Option.toList_none, ite_self]
      exact Change.refl distinct []
  | some node =>
      have taken := Change.of_moved (moved_withoutNode distinct found)
      by_cases inside : address.root = .held name
      · refine .inl ⟨_, _, takeFor_of_self found inside, ?_⟩
        rw [if_pos inside, Option.toList_some, Forest.bonds_singleton]
        exact taken.trans (Change.destroyNode taken.distinct node)
      · rw [if_neg inside]
        exact .inr ⟨node, _, takeFor_of_ok found inside, rfl, sameRoot_withoutNode inside,
          Named.lookup_without_self _ _, taken⟩

end

section

variable [EventKind β]

/-- Inserting makes nothing, and destroys only a node that shall go below itself. -/
theorem insert?_change (distinct : workspace.Distinct) (name : String) (position : Nat)
    (address : Address) :
    Change []
      (if (workspace.editable? address).isSome then
        Forest.bonds (workspace.lostInMoving name address) else []) workspace []
      (insert? name position address workspace).2 [] := by
  rw [insert?]
  cases found : workspace.editable? address with
  | none =>
      rcases editForest?_of_none found with ⟨result, runs, _⟩
      rw [runs]
      exact Change.refl distinct []
  | some forest =>
      rw [Option.isSome_some, if_pos rfl]
      rcases takeFor_cases distinct name address with
        ⟨astray, after, takes, change⟩ | ⟨node, after, takes, none, same, -, change⟩
      · rw [editForest?_of_error found (bind_of_error takes)]
        exact change
      · rw [none]
        have exchanged : (Forest.bonds (Forest.insert position node forest) ++ []).Perm
            (Forest.bonds forest ++ node.bonds) := by
          rw [List.append_nil]
          exact (Forest.bonds_insert position node forest).trans List.perm_append_comm
        obtain ⟨final, inserts, moved⟩ : ∃ final, insert? name position address workspace =
            (.ok (some (Forest.insert position node forest)), final) ∧
              Moved after node.bonds final [] :=
          editForest?_of_ok change.distinct found (bind_of_ok takes) same exchanged
        rw [insert?] at inserts
        rw [inserts]
        exact change.trans_moved moved

/-- Removing makes and destroys nothing; the node removed comes into the hand. -/
theorem remove?_moved (distinct : workspace.Distinct) (position : Nat) (address : Address) :
    match (workspace.editable? address).bind (Forest.remove? position) with
    | none => ∃ result after, remove? position address workspace = (result, after) ∧
        (∀ node rest, result ≠ .ok (some (some node, rest))) ∧ Moved workspace [] after []
    | some (node, rest) => ∃ after, remove? position address workspace =
        (.ok (some (some node, rest)), after) ∧ Moved workspace [] after node.bonds := by
  cases found : workspace.editable? address with
  | none =>
      rcases editForest?_of_none found with ⟨result, runs, none⟩
      exact ⟨result, workspace, runs, fun node rest => none (some node, rest), distinct, rfl,
        List.Perm.refl _⟩
  | some forest =>
      have same : SameRoot address workspace workspace := by
        rcases address with ⟨_ | _, _⟩ <;> rfl
      rw [Option.bind_some]
      cases removed : Forest.remove? position forest with
      | none =>
          obtain ⟨after, runs, moved⟩ : ∃ after, remove? position address workspace =
              (.ok (some (none, forest)), after) ∧ Moved workspace [] after [] := by
            apply editForest?_of_ok distinct found _ same (List.Perm.refl _)
            rw [removed]
            rfl
          exact ⟨_, after, runs, (fun _ _ impossible => by cases impossible), moved⟩
      | some outcome =>
          rcases outcome with ⟨node, rest⟩
          have exchanged : (Forest.bonds rest ++ node.bonds).Perm (Forest.bonds forest ++ []) := by
            rw [List.append_nil]
            exact List.perm_append_comm.trans (Forest.bonds_remove removed).symm
          apply editForest?_of_ok distinct found _ same exchanged
          rw [removed]
          rfl

/-- Clearing destroys the nodes of the forest. -/
theorem clear?_change (distinct : workspace.Distinct) (address : Address) :
    Change [] (Forest.bonds ((workspace.editable? address).getD [])) workspace []
      (clear? address workspace).2 [] := by
  cases found : workspace.editable? address with
  | none =>
      rcases editForest?_of_none found with ⟨result, runs, _⟩
      rw [clear?, runs]
      exact Change.refl distinct []
  | some forest =>
      have same : SameRoot address workspace
          { workspace with population := (Forest.destroy forest workspace.population).2 } := by
        rcases address with ⟨_ | _, _⟩ <;> rfl
      have destroyed := Change.destroyForest distinct forest
      obtain ⟨final, clears, moved⟩ : ∃ final, clear? address workspace = (.ok (some ()), final) ∧
          Moved { workspace with population := (Forest.destroy forest workspace.population).2 } []
            final (Forest.bonds forest) :=
        editForest?_of_ok destroyed.distinct found rfl same (by simp)
      rw [clears]
      -- the nodes are still in their places when they are destroyed
      refine ⟨moved.distinct, ?_, ?_⟩
      · rw [moved.population]
        apply ((Exchange.destroyForest forest workspace.population).frame final.bonds).perm
        · exact moved.same.trans List.perm_append_comm
        · exact List.perm_append_comm
      · rw [List.append_nil, List.append_nil]
        exact moved.same.symm

/-- A node that is pushed makes and destroys nothing, unless it shall go below itself. -/
theorem push_change (distinct : workspace.Distinct) (name : String) (address : Address) :
    Change []
      (if (workspace.nodeAt? address).isSome then
        Forest.bonds (workspace.lostInMoving name address) else []) workspace []
      (push name address workspace).2 [] := by
  rw [push]
  cases found : workspace.nodeAt? address with
  | none => 
      rcases nodeAt_of_none found with ⟨astray, runs⟩
      rw [bind_of_error runs]
      exact Change.refl distinct []
  | some parent =>
      rw [bind_of_ok (nodeAt_of_some found), Option.isSome_some, if_pos rfl]
      rcases takeFor_cases distinct name address with
        ⟨astray, after, takes, change⟩ | ⟨node, after, takes, none, same, gone, change⟩
      · rw [bind_of_error takes]
        exact change
      · have again : after.nodeAt? address = some parent := same.nodeAt?_eq.trans found
        rw [bind_of_ok takes, bind_of_ok (nodeAt_of_some again), none, Node.pushSubEvent?,
          Node.editSubEvents?]
        cases owns : parent.ownsSubEvents with
        | true =>
            have exchanged : (({ parent with subEvents := parent.subEvents ++ [node] } :
                Node β).bonds ++ []).Perm (parent.bonds ++ node.bonds) := by
              rw [List.append_nil, Node.bonds_takingIn, Forest.bonds_singleton]
            rcases setNodeAt_moved change.distinct again exchanged with ⟨final, sets, moved⟩
            simp only [↓reduceIte]
            rw [bind_of_ok sets]
            exact change.trans_moved moved
        | false =>
            have stored := storeNode_change change.distinct name node
            rw [gone] at stored
            exact change.trans stored

end

end EventSheet.Workspace
