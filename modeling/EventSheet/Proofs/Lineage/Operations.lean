import EventSheet.Proofs.Lineage.Sheets
namespace EventSheet

/-! # What is done with the nodes of a workspace

Each operation is the edit it makes, and each has its account: which nodes it makes, with what they
remember, and which it destroys. All others are kept, wherever they are put. -/

/-- What can be done. New sheets and nodes are stored under a name, and what was there is destroyed;
handles are kept under names of their own. -/
inductive Operation (β : Type) where
  /-- Make a node that owns held nodes. -/
  | build (behavior : β) (names : List String) (target : String)
  /-- Make a sheet of held nodes. -/
  | gather (names : List String) (target : String)
  | restore (registry : Registry β) (snapshot : Snapshot) (target : String)
  /-- Change what a node does and its flags. -/
  | alter (address : Address) (behavior : β) (disabled folded : Bool)
  | push (name : String) (address : Address)
  | insert (name : String) (position : Nat) (address : Address)
  /-- Take a node out of a forest, to hold it or to destroy it. -/
  | remove (position : Nat) (address : Address) (target : Option String)
  | clear (address : Address)
  | drop (root : Root)
  | cloneNode (address : Address) (remembering : Bool) (target : String)
  | cloneForest (address : Address) (remembering : Bool) (target : String)
  | preprocess (fuel : Nat) (scope : String) (budget : Nat) (externals : List (String × String))
      (name : String)
  | compile (fuel : Nat) (settings : Settings) (scope : String) (budget : Nat)
      (externals : List (String × String)) (address : Address)
  | takeHandle (address : Address) (target : String)
  /-- Take a handle to the node that a node remembers, while there is one. -/
  | takeOriginal (address : Address) (target : String)
  | copyHandle (name target : String)
  | publish (name : String) (sample : Sample)

namespace Operation

open Workspace

variable {β : Type} [Behavior β]

/-- What an operation does to the workspace. A pass that does not end within its fuel does not
take place. -/
def edit : Operation β → Edit β Unit
  | .build behavior names target => do storeNode target (← assemble behavior names)
  | .gather names target => do storeSheet target (← takeNodes names)
  | .restore registry snapshot target => do
      match ← onPopulation (snapshot.restore registry) with
      | .ok forest => storeSheet target forest
      | .error _ => return
  | .alter address behavior disabled folded => do
      let node ← nodeAt address
      setNodeAt address (node.mapEvent fun event => { event with behavior, disabled, folded })
  | .push name address => do let _ ← Workspace.push name address
  | .insert name position address => do let _ ← insert? name position address
  | .remove position address target => do
      match ← remove? position address with
      | some (some node, _) =>
          match target with
          | some name => storeNode name node
          | none => onPopulation node.destroy
      | _ => return
  | .clear address => do let _ ← clear? address
  | .drop root => Workspace.drop root
  | .cloneNode address remembering target => do
      let node ← nodeAt address
      storeNode target (← onPopulation (if remembering then node.cloneRemembering else node.clone))
  | .cloneForest address remembering target => do
      let forest ← forestAt address
      storeSheet target (← onPopulation
        (if remembering then Forest.cloneRemembering forest else Forest.clone forest))
  | .preprocess fuel scope budget externals name => do
      let before ← get
      let context ← withExternals { scope, maxLinkExpansions := budget } externals
      match ← Workspace.preprocess fuel context name with
      | some (_, context) => release context
      | none => set before
  | .compile fuel settings scope budget externals address => do
      let before ← get
      let context ← withExternals { scope, maxLinkExpansions := budget } externals
      match ← Workspace.compile fuel settings context address with
      | some _ => return
      | none => set before
  | .takeHandle _ _ | .takeOriginal _ _ | .copyHandle _ _ | .publish _ _ => return

/-- Nodes made and nodes destroyed. -/
structure Account where
  made : List Bond := []
  destroyed : List Bond := []

/-- What an operation makes and what it destroys, passes apart. -/
def account (workspace : Workspace β) : Operation β → Account
  | .build behavior names target =>
      let new : Bond := (workspace.population.nextId, none)
      match Named.takeAll names workspace.held with
      | (children, none) => { made := [new], destroyed := Forest.bonds children ++ [new] }
      | (children, some left) =>
          { made := [new]
            destroyed := (if EventKind.ownsSubEvents behavior then [] else Forest.bonds children) ++
              Forest.bonds (left.lookup target).toList }
  | .gather names target =>
      match Named.takeAll names workspace.held with
      | (nodes, none) => { destroyed := Forest.bonds nodes }
      | (_, some _) => { destroyed := Forest.bonds ((workspace.sheets.lookup target).getD []) }
  | .restore registry snapshot target =>
      match (snapshot.restore registry workspace.population).1 with
      | .ok _ =>
          { made := Bond.numbered workspace.population.nextId
              (List.replicate snapshot.events.length none)
            destroyed := Forest.bonds ((workspace.sheets.lookup target).getD []) }
      | .error _ => {}
  | .push name address =>
      if (workspace.nodeAt? address).isSome then
        { destroyed := Forest.bonds (workspace.lostInMoving name address) }
      else {}
  | .insert name _ address =>
      if (workspace.editable? address).isSome then
        { destroyed := Forest.bonds (workspace.lostInMoving name address) }
      else {}
  | .remove position address target =>
      match (workspace.editable? address).bind (Forest.remove? position) with
      | none => {}
      | some (node, _) =>
          match target with
          | none => { destroyed := node.bonds }
          | some name =>
              { destroyed :=
                  Forest.bonds ((remove? position address workspace).2.held.lookup name).toList }
  | .clear address => { destroyed := Forest.bonds ((workspace.editable? address).getD []) }
  | .drop root => { destroyed := Forest.bonds (workspace.treesAt root) }
  | .cloneNode address remembering target =>
      match workspace.nodeAt? address with
      | none => {}
      | some node =>
          let below := (Forest.members node.subEvents).map Event.remembered
          { made := Bond.numbered workspace.population.nextId
              ((if remembering then some node.id else node.event.remembered) :: below)
            destroyed := Forest.bonds (workspace.held.lookup target).toList }
  | .cloneForest address remembering target =>
      match workspace.forestAt? address with
      | none => {}
      | some forest =>
          { made := Bond.numbered workspace.population.nextId
              ((Forest.members forest).map
                (if remembering then Event.itself else Event.remembered))
            destroyed := Forest.bonds ((workspace.sheets.lookup target).getD []) }
  | _ => {}

/-- A pass makes and destroys what the kinds ask for. -/
def isPass : Operation β → Bool
  | .preprocess .. | .compile .. => true
  | _ => false

/-- New nodes get the next ids. -/
theorem account_made (workspace : Workspace β) (operation : Operation β) :
    ∃ links, (operation.account workspace).made =
      Bond.numbered workspace.population.nextId links := by
  cases operation with
  | build =>
      rw [account]
      split <;> exact ⟨[none], rfl⟩
  | restore =>
      rw [account]
      split
      · exact ⟨_, rfl⟩
      · exact ⟨[], rfl⟩
  | cloneNode | cloneForest =>
      rw [account]
      split
      · exact ⟨[], rfl⟩
      · exact ⟨_, rfl⟩
  | gather | push | insert | remove =>
      rw [account]
      repeat' split
      all_goals exact ⟨[], rfl⟩
  | _ => exact ⟨[], rfl⟩

/-- The operation was done as its account says. -/
def Accounted (operation : Operation β) (before after : Workspace β) : Prop :=
  Change (operation.account before).made (operation.account before).destroyed before [] after []

/-- What an operation leads to. A pass ends with its sheets destroyed and, in the place of the
forest it was over, with nodes that were there before or were given by an event it asked. -/
def Conforms (operation : Operation β) (before after : Workspace β) : Prop :=
  match operation with
  | .preprocess fuel scope budget externals name =>
      match Named.takeAll (externals.map Prod.snd) before.sheets with
      | (sheets, none) => Change [] (Forest.bonds sheets.flatten) before [] after []
      | (sheets, some left) =>
          match left.lookup name with
          | none => Change [] (Forest.bonds sheets.flatten) before [] after []
          | some forest => ∃ population,
              match forest.preprocessRecorded fuel ⟨registering
                { scope, maxLinkExpansions := budget } (externals.map Prod.fst) sheets,
                population⟩ with
              | none => after = before
              | some ((result, _), (_, calls)) =>
                  after.Distinct ∧ after.sheets = left.change name (fun _ => result) ∧
                  after.held = before.held ∧
                  Exchange before.population before.bonds after.population after.bonds ∧
                  ∀ bond ∈ Forest.bonds result, bond ∈ Forest.bonds forest ∨
                    ∃ call ∈ calls, bond ∈ Forest.bonds call.answer.given
  | .compile fuel settings scope budget externals address =>
      match Named.takeAll (externals.map Prod.snd) before.sheets with
      | (sheets, none) => Change [] (Forest.bonds sheets.flatten) before [] after []
      | (sheets, some left) =>
          match ({ before with sheets := left } : Workspace β).forestAt? address with
          | none => Change [] (Forest.bonds sheets.flatten) before [] after []
          | some forest => ∃ population,
              match compileEvents fuel settings (registering
                { scope, maxLinkExpansions := budget } (externals.map Prod.fst) sheets) forest
                population with
              | none => after = before
              | some _ => Change [] (Forest.bonds sheets.flatten) before [] after []
  | operation => operation.Accounted before after

/-! ## Accounts of single operations -/

section

variable {workspace : Workspace β}

theorem accounted_build (distinct : workspace.Distinct) (behavior : β) (names : List String)
    (target : String) :
    (build behavior names target).Accounted workspace
      ((build behavior names target).edit workspace).2 := by
  have assembled := assemble_change behavior names distinct
  rw [Accounted, account, edit]
  rcases outcome : Named.takeAll names workspace.held with ⟨children, left?⟩
  rw [outcome] at assembled
  cases left? with
  | none =>
      rcases assembled with ⟨astray, after, runs, change⟩
      rw [bind_of_error runs]
      exact change
  | some left =>
      rcases assembled with ⟨node, population, runs, change⟩
      rw [bind_of_ok runs]
      have stored := change.trans (storeNode_change change.distinct target node)
      rw [List.append_nil] at stored
      exact stored

theorem accounted_gather (distinct : workspace.Distinct) (names : List String)
    (target : String) :
    (gather names target : Operation β).Accounted workspace
      ((gather names target : Operation β).edit workspace).2 := by
  have taken := takeNodes_change names workspace distinct
  rw [Accounted, account, edit]
  rcases outcome : Named.takeAll names workspace.held with ⟨nodes, left?⟩
  rw [outcome] at taken
  cases left? with
  | none =>
      rcases taken with ⟨astray, after, runs, change⟩
      rw [bind_of_error runs]
      exact change
  | some left =>
      rcases taken with ⟨runs, change⟩
      rw [bind_of_ok runs]
      exact change.trans (storeSheet_change change.distinct target nodes)

theorem accounted_restore (distinct : workspace.Distinct) (registry : Registry β)
    (snapshot : Snapshot) (target : String) :
    (restore registry snapshot target).Accounted workspace
      ((restore registry snapshot target).edit workspace).2 := by
  have restored := snapshot.restore_exchange registry workspace.population
  rw [Accounted, account, edit, bind_of_ok (onPopulation_run _ _)]
  rcases outcome : snapshot.restore registry workspace.population with ⟨result, population⟩
  rw [outcome] at restored
  cases result with
  | error error =>
      exact Change.onPopulation distinct restored (List.Perm.refl _)
  | ok forest =>
      rcases restored with ⟨exchange, bonds⟩
      have made := Change.make distinct exchange
      have stored := made.trans (storeSheet_change made.distinct target forest)
      rw [List.append_nil, bonds] at stored
      exact stored

omit [Behavior β] in
theorem cloneNode_exchange (node : Node β) (remembering : Bool) (population : Population) :
    Exchange population []
        ((if remembering then node.cloneRemembering else node.clone) population).2
        ((if remembering then node.cloneRemembering else node.clone) population).1.bonds ∧
      ((if remembering then node.cloneRemembering else node.clone) population).1.bonds =
        Bond.numbered population.nextId
          ((if remembering then some node.id else node.event.remembered) ::
            (Forest.members node.subEvents).map Event.remembered) := by
  have plain := (Node.bonds_copy Event.remembered node population).1
  have exchange := Exchange.copyNode Event.remembered node population
  rw [← Node.clone_eq_copy] at plain exchange
  rw [Node.members_eq, List.map_cons] at plain
  cases remembering with
  | false => exact ⟨exchange, plain⟩
  | true =>
      have copy : (node.cloneRemembering population).1.bonds =
          (((node.clone population).1.event.id, some node.id) : Bond) ::
            Forest.bonds (node.clone population).1.subEvents := by
        rw [Node.bonds_eq]
        rfl
      have source := Node.bonds_eq (node.clone population).1
      rw [plain, Bond.numbered_cons, List.cons.injEq, Event.bond, Prod.mk.injEq] at source
      have bonds : (node.cloneRemembering population).1.bonds = Bond.numbered population.nextId
          (some node.id :: (Forest.members node.subEvents).map Event.remembered) := by
        rw [copy, Bond.numbered_cons, source.2, ← source.1.1]
      refine ⟨?_, bonds⟩
      apply Exchange.relink exchange
      rw [if_pos rfl, bonds, plain, Bond.numbered_cons, Bond.numbered_cons]
      rfl

theorem accounted_cloneNode (distinct : workspace.Distinct) (address : Address)
    (remembering : Bool) (target : String) :
    (cloneNode address remembering target : Operation β).Accounted workspace
      ((cloneNode address remembering target : Operation β).edit workspace).2 := by
  rw [Accounted, account, edit]
  cases found : workspace.nodeAt? address with
  | none =>
      rcases nodeAt_of_none found with ⟨astray, runs⟩
      rw [bind_of_error runs]
      exact Change.refl distinct []
  | some node =>
      rcases cloneNode_exchange node remembering workspace.population with ⟨exchange, bonds⟩
      rw [bind_of_ok (nodeAt_of_some found), bind_of_ok (onPopulation_run _ _)]
      have made := Change.make distinct exchange
      have stored := made.trans (storeNode_change made.distinct target _)
      rw [List.append_nil, bonds] at stored
      exact stored

theorem accounted_cloneForest (distinct : workspace.Distinct) (address : Address)
    (remembering : Bool) (target : String) :
    (cloneForest address remembering target : Operation β).Accounted workspace
      ((cloneForest address remembering target : Operation β).edit workspace).2 := by
  rw [Accounted, account, edit]
  cases found : workspace.forestAt? address with
  | none =>
      rcases forestAt_of_none found with ⟨astray, runs⟩
      rw [bind_of_error runs]
      exact Change.refl distinct []
  | some forest =>
      rw [bind_of_ok (forestAt_of_some found), bind_of_ok (onPopulation_run _ _),
        Forest.cloned_eq_copy]
      have made := Change.make distinct (Exchange.copyForest
        (if remembering then Event.itself else Event.remembered) forest workspace.population)
      have stored := made.trans (storeSheet_change made.distinct target _)
      rw [List.append_nil, (Forest.bonds_copy _ _ _).1] at stored
      exact stored

theorem accounted_remove (distinct : workspace.Distinct) (position : Nat) (address : Address)
    (target : Option String) :
    (remove position address target : Operation β).Accounted workspace
      ((remove position address target : Operation β).edit workspace).2 := by
  have removed := remove?_moved distinct position address
  rw [Accounted, account, edit]
  cases found : (workspace.editable? address).bind (Forest.remove? position) with
  | none =>
      rw [found] at removed
      rcases removed with ⟨result, after, runs, noNode, moved⟩
      cases result with
      | error astray =>
          rw [bind_of_error runs]
          exact Change.of_moved moved
      | ok answer =>
          rw [bind_of_ok runs]
          rcases answer with _ | ⟨_ | node, rest⟩
          · exact Change.of_moved moved
          · exact Change.of_moved moved
          · exact absurd rfl (noNode node rest)
  | some outcome =>
      rcases outcome with ⟨node, rest⟩
      rw [found] at removed
      rcases removed with ⟨after, runs, moved⟩
      rw [bind_of_ok runs]
      cases target with
      | none => exact (Change.of_moved moved).trans (Change.destroyNode moved.distinct node)
      | some name =>
          rw [runs]
          exact (Change.of_moved moved).trans (storeNode_change moved.distinct name node)

theorem accounted_alter (distinct : workspace.Distinct) (address : Address) (behavior : β)
    (disabled folded : Bool) :
    (alter address behavior disabled folded).Accounted workspace
      ((alter address behavior disabled folded).edit workspace).2 := by
  rw [Accounted, edit]
  cases found : workspace.nodeAt? address with
  | none =>
      rcases nodeAt_of_none found with ⟨astray, runs⟩
      rw [bind_of_error runs]
      exact Change.refl distinct []
  | some node =>
      -- the node keeps its bond
      have same : (node.mapEvent fun event => { event with behavior, disabled, folded }).bonds =
          node.bonds := by
        rw [Node.bonds_eq, Node.bonds_eq node]
        rfl
      rcases setNodeAt_moved distinct found (List.Perm.of_eq (congrArg (· ++ []) same)) with
        ⟨after, sets, moved⟩
      rw [bind_of_ok (nodeAt_of_some found), sets]
      exact Change.of_moved moved

theorem accounted_push (distinct : workspace.Distinct) (name : String) (address : Address) :
    (push name address : Operation β).Accounted workspace
      ((push name address : Operation β).edit workspace).2 := by
  have pushed := push_change distinct name address
  rw [Accounted, account, edit, snd_andReturn]
  split
  · next isNode => rwa [if_pos isNode] at pushed
  · next noNode => rwa [if_neg noNode] at pushed

theorem accounted_insert (distinct : workspace.Distinct) (name : String) (position : Nat)
    (address : Address) :
    (insert name position address : Operation β).Accounted workspace
      ((insert name position address : Operation β).edit workspace).2 := by
  have inserted := insert?_change distinct name position address
  rw [Accounted, account, edit, snd_andReturn]
  split
  · next isForest => rwa [if_pos isForest] at inserted
  · next noForest => rwa [if_neg noForest] at inserted

theorem accounted_clear (distinct : workspace.Distinct) (address : Address) :
    (clear address : Operation β).Accounted workspace
      ((clear address : Operation β).edit workspace).2 := by
  rw [Accounted, edit, snd_andReturn]
  exact clear?_change distinct address

/-! ## Passes -/

theorem conforms_preprocess (keeps : Behavior.KeepsAccounts β) (distinct : workspace.Distinct)
    (fuel : Nat) (scope : String) (budget : Nat) (externals : List (String × String))
    (name : String) :
    (preprocess fuel scope budget externals name : Operation β).Conforms workspace
      ((preprocess fuel scope budget externals name : Operation β).edit workspace).2 := by
  have read : (get : Edit β (Workspace β)) workspace = (.ok workspace, workspace) := rfl
  have registers := withExternals_change externals
    { scope, maxLinkExpansions := budget } workspace distinct List.nodup_nil
  rw [Conforms, edit, bind_of_ok read]
  rcases outcome : Named.takeAll (externals.map Prod.snd) workspace.sheets with ⟨sheets, left?⟩
  rw [outcome] at registers
  cases left? with
  | none =>
      rcases registers with ⟨astray, after, runs, change⟩
      rw [bind_of_error runs]
      exact change
  | some left =>
      rcases registers with ⟨population, destroyed, runs, same, change⟩
      rw [bind_of_ok runs]
      dsimp only
      cases found : left.lookup name with
      | none =>
          rw [bind_of_error (preprocess_of_unknown found)]
          exact (change.trans (release_change change.distinct _)).perm same (List.Perm.refl _)
      | some forest =>
          refine ⟨population, ?_⟩
          have runs : Workspace.preprocess fuel (registering
              { scope, maxLinkExpansions := budget } (externals.map Prod.fst) sheets) name
              { workspace with population, sheets := left } = _ := preprocess_of_known found
          rw [Forest.preprocess_eq_recorded] at runs
          rcases passes : forest.preprocessRecorded fuel ⟨registering
            { scope, maxLinkExpansions := budget } (externals.map Prod.fst) sheets, population⟩ with
            _ | ⟨⟨result, visited⟩, state, calls⟩
          · rw [passes] at runs
            rw [bind_of_ok runs]
            rfl
          · rw [passes] at runs
            rw [bind_of_ok runs]
            have traverses := Forest.traverses_of_recorded passes
            have passed := exchange_of_pass keeps change.distinct found traverses
            have released := Exchange.destroyForest state.context.sheets state.population
            have whole := (change.exchange.trans passed).trans (released.frameLeft _)
            have names := change.distinct.sheets.change name fun _ => result
            refine ⟨⟨names, distinct.held⟩, rfl, rfl, whole.perm ?_ ?_, traverses.bond_origin⟩
            · exact List.Perm.of_eq (List.append_nil _).symm
            · exact List.Perm.of_eq (List.append_nil _)

theorem conforms_compile (keeps : Behavior.KeepsAccounts β) (distinct : workspace.Distinct)
    (fuel : Nat) (settings : Settings) (scope : String) (budget : Nat)
    (externals : List (String × String)) (address : Address) :
    (compile fuel settings scope budget externals address : Operation β).Conforms workspace
      ((compile fuel settings scope budget externals address : Operation β).edit workspace).2 := by
  have read : (get : Edit β (Workspace β)) workspace = (.ok workspace, workspace) := rfl
  have registers := withExternals_change externals
    { scope, maxLinkExpansions := budget } workspace distinct List.nodup_nil
  rw [Conforms, edit, bind_of_ok read]
  rcases outcome : Named.takeAll (externals.map Prod.snd) workspace.sheets with ⟨sheets, left?⟩
  rw [outcome] at registers
  cases left? with
  | none =>
      rcases registers with ⟨astray, after, runs, change⟩
      rw [bind_of_error runs]
      exact change
  | some left =>
      rcases registers with ⟨population, destroyed, runs, same, change⟩
      rw [bind_of_ok runs]
      dsimp only
      cases found : ({ workspace with sheets := left } : Workspace β).forestAt? address with
      | none =>
          have missing : ({ workspace with population, sheets := left } : Workspace β).forestAt?
            address = none := found
          rcases compile_of_none missing with ⟨astray, runs⟩
          rw [bind_of_error runs]
          exact (change.trans (release_change change.distinct _)).perm same (List.Perm.refl _)
      | some forest =>
          refine ⟨population, ?_⟩
          have known : ({ workspace with population, sheets := left } : Workspace β).forestAt?
            address = some forest := found
          have runs : Workspace.compile fuel settings (registering
              { scope, maxLinkExpansions := budget } (externals.map Prod.fst) sheets) address
              { workspace with population, sheets := left } = _ := compile_of_some known
          rcases compiles : compileEvents fuel settings (registering
            { scope, maxLinkExpansions := budget } (externals.map Prod.fst) sheets) forest
            population with _ | ⟨code, final⟩
          · rw [compiles] at runs
            rw [bind_of_ok runs]
            rfl
          · rw [compiles] at runs
            rw [bind_of_ok runs]
            exact (change.trans (compile_change keeps change.distinct compiles)).perm same
              (List.Perm.refl _)

/-- Every operation leads to what it is said to. -/
theorem conforms_edit (keeps : Behavior.KeepsAccounts β) (distinct : workspace.Distinct)
    (operation : Operation β) : operation.Conforms workspace (operation.edit workspace).2 := by
  cases operation with
  | build behavior names target => exact accounted_build distinct behavior names target
  | gather names target => exact accounted_gather distinct names target
  | restore registry snapshot target =>
      exact accounted_restore distinct registry snapshot target
  | alter address behavior disabled folded =>
      exact accounted_alter distinct address behavior disabled folded
  | push name address => exact accounted_push distinct name address
  | insert name position address => exact accounted_insert distinct name position address
  | remove position address target => exact accounted_remove distinct position address target
  | clear address => exact accounted_clear distinct address
  | drop root => exact drop_change distinct root
  | cloneNode address remembering target =>
      exact accounted_cloneNode distinct address remembering target
  | cloneForest address remembering target =>
      exact accounted_cloneForest distinct address remembering target
  | preprocess fuel scope budget externals name =>
      exact conforms_preprocess keeps distinct fuel scope budget externals name
  | compile fuel settings scope budget externals address =>
      exact conforms_compile keeps distinct fuel settings scope budget externals address
  | takeHandle | takeOriginal | copyHandle | publish => exact Change.refl distinct []

theorem Conforms.accounted {operation : Operation β} {before after : Workspace β}
    (conforms : operation.Conforms before after) (noPass : operation.isPass = false) :
    operation.Accounted before after := by
  cases operation with
  | preprocess | compile => cases noPass
  | _ => exact conforms

/-- Whatever is done, the nodes in the workspace are exchanged for those that are in it after. -/
theorem Conforms.exchange {operation : Operation β} {before after : Workspace β}
    (distinct : before.Distinct) (conforms : operation.Conforms before after) :
    after.Distinct ∧ EventSheet.Exchange before.population before.bonds after.population
      after.bonds := by
  have ofChange : ∀ {made destroyed : List Bond}, Change made destroyed before [] after [] →
      after.Distinct ∧ EventSheet.Exchange before.population before.bonds after.population
        after.bonds := by
    intro made destroyed change
    have exchange := change.exchange
    rw [List.append_nil, List.append_nil] at exchange
    exact ⟨change.distinct, exchange⟩
  cases operation with
  | preprocess fuel scope budget externals name =>
      simp only [Conforms] at conforms
      split at conforms
      · exact ofChange conforms
      · split at conforms
        · exact ofChange conforms
        · rcases conforms with ⟨population, passes⟩
          split at passes
          · subst passes
            exact ⟨distinct, .refl _ _⟩
          · exact ⟨passes.1, passes.2.2.2.1⟩
  | compile fuel settings scope budget externals address =>
      simp only [Conforms] at conforms
      split at conforms
      · exact ofChange conforms
      · split at conforms
        · exact ofChange conforms
        · rcases conforms with ⟨population, compiles⟩
          split at compiles
          · subst compiles
            exact ⟨distinct, .refl _ _⟩
          · exact ofChange compiles
  | _ => exact ofChange conforms

end

end Operation

end EventSheet
