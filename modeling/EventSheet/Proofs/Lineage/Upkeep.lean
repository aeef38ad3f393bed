import EventSheet.Proofs.Lineage.Operations
namespace EventSheet

/-! # What operations keep up

To show that operations keep something up it is enough to look at the few steps they are made of:
nodes are made, copied and destroyed, go to a name and away from it, and get other sub-events where
they stand. -/

namespace Workspace

variable {β : Type} {α γ : Type}

/-! ## Edits -/

/-- Whatever way an edit ends, something is kept up, and its answer, if it has one, is of a
kind. -/
def Keeps (Fits : Workspace β → Prop) (action : Edit β α) (answers : α → Prop) : Prop :=
  ∀ workspace, Fits workspace →
    Fits (action workspace).2 ∧ ∀ value, (action workspace).1 = .ok value → answers value

section

variable {Fits : Workspace β → Prop} {action : Edit β α} {answers : α → Prop}

theorem Keeps.pure {value : α} (answer : answers value) :
    Keeps Fits (pure value : Edit β α) answers := by
  intro workspace fits
  refine ⟨fits, ?_⟩
  rintro _ ⟨⟩
  exact answer

theorem Keeps.throw (astray : Astray) : Keeps Fits (throw astray : Edit β α) answers :=
  fun _ fits => ⟨fits, nofun⟩

theorem Keeps.set {before : Workspace β} (fits : Fits before) :
    Keeps Fits (set before : Edit β PUnit) fun _ => True :=
  fun _ _ => ⟨fits, fun _ _ => trivial⟩

theorem Keeps.bind {next : α → Edit β γ} {results : γ → Prop} (keeps : Keeps Fits action answers)
    (further : ∀ value, answers value → Keeps Fits (next value) results) :
    Keeps Fits (action >>= next) results := by
  intro workspace fits
  have kept := keeps workspace fits
  rcases runs : action workspace with ⟨astray | value, after⟩
  · rw [runs] at kept
    rw [bind_of_error runs]
    exact ⟨kept.1, nofun⟩
  · rw [runs] at kept
    rw [bind_of_ok runs]
    exact further value (kept.2 value rfl) after kept.1

theorem Keeps.fits_bind {next : α → Edit β γ} (keeps : Keeps Fits action answers)
    (further : ∀ value, answers value → Keeps Fits (next value) fun _ => True)
    {workspace : Workspace β} (fits : Fits workspace) : Fits ((action >>= next) workspace).2 :=
  (keeps.bind further workspace fits).1

theorem Keeps.tryCatch {handler : Astray → Edit β α} (keeps : Keeps Fits action answers)
    (handles : ∀ astray, Keeps Fits (handler astray) answers) :
    Keeps Fits (tryCatch action handler) answers := by
  intro workspace fits
  have kept := keeps workspace fits
  rcases runs : action workspace with ⟨astray | value, after⟩
  · rw [runs] at kept
    rw [tryCatch_of_error runs]
    exact handles astray after kept.1
  · rw [tryCatch_of_ok runs, ← runs]
    exact kept

theorem Keeps.onPopulation {action : StateM Population α}
    (keeps : ∀ workspace : Workspace β, Fits workspace →
      Fits { workspace with population := (action workspace.population).2 } ∧
        answers (action workspace.population).1) :
    Keeps Fits (onPopulation action) answers := by
  intro workspace fits
  rw [onPopulation_run]
  refine ⟨(keeps workspace fits).1, ?_⟩
  rintro _ ⟨⟩
  exact (keeps workspace fits).2

end

/-- What `setNodeAt` leads to. -/
def withNodeAt (workspace : Workspace β) (address : Address) (node : Node β) : Workspace β :=
  (setNodeAt address node workspace).2

theorem SameRoot.of_eq {before after : Workspace β} {address : Address}
    (sheets : after.sheets = before.sheets) (held : after.held = before.held) :
    SameRoot address before after := by
  rcases address with ⟨_ | _, _⟩
  · exact congrArg (List.lookup _) sheets
  · exact congrArg (List.lookup _) held

end Workspace

/-! ## Steps -/

open Workspace

/-- Something that the steps of operations keep up: `Fits` of the workspace and `Good` of every
node that is in hand, as long as only `free` names are used and only nodes that are `reached` get
other sub-events. -/
structure Upkeep {β : Type} [EventKind β] (Fits : Workspace β → Prop) (Good : Node β → Prop)
    (free : Root → Prop) (reached : NodeId → Prop) : Prop where
  retire : ∀ workspace ids, Fits workspace →
    Fits { workspace with population := workspace.population.retireAll ids }
  create : ∀ workspace behavior, Fits workspace →
    Fits { workspace with population := (Node.create behavior workspace.population).2 } ∧
      ∀ children : Forest β, (∀ child ∈ children, Good child) →
        (EventKind.ownsSubEvents behavior = false → children = []) →
        Good { (Node.create behavior workspace.population).1 with subEvents := children }
  restore : ∀ workspace (registry : Registry β) (snapshot : Snapshot), Fits workspace →
    Fits { workspace with population := (snapshot.restore registry workspace.population).2 } ∧
      ∀ forest, (snapshot.restore registry workspace.population).1 = .ok forest →
        ∀ node ∈ forest, Good node
  copyNode : ∀ workspace (node : Node β) (remembering : Bool), Fits workspace → Good node →
    Fits { workspace with
      population :=
        ((if remembering then node.cloneRemembering else node.clone) workspace.population).2 } ∧
      Good ((if remembering then node.cloneRemembering else node.clone) workspace.population).1
  copyForest : ∀ workspace (forest : Forest β) (remembering : Bool), Fits workspace →
    (∀ node ∈ forest, Good node) →
    Fits { workspace with
      population :=
        ((if remembering then Forest.cloneRemembering forest else Forest.clone forest)
          workspace.population).2 } ∧
      ∀ node ∈ ((if remembering then Forest.cloneRemembering forest else Forest.clone forest)
        workspace.population).1, Good node
  below : ∀ node, Good node → ∀ child ∈ node.subEvents, Good child
  sheet : ∀ workspace name forest, Fits workspace →
    workspace.sheets.lookup name = some forest → ∀ node ∈ forest, Good node
  found : ∀ workspace address node, Fits workspace → workspace.nodeAt? address = some node →
    Good node
  takeSheet : ∀ workspace name, free (.sheet name) → Fits workspace →
    Fits { workspace with sheets := workspace.sheets.without name }
  takeNode : ∀ workspace name, free (.held name) → Fits workspace →
    Fits { workspace with held := workspace.held.without name }
  putSheet : ∀ workspace name forest, free (.sheet name) → Fits workspace →
    (∀ node ∈ forest, Good node) →
    Fits { workspace with sheets := workspace.sheets.put name forest }
  putNode : ∀ workspace name node, free (.held name) → Fits workspace → Good node →
    Fits { workspace with held := workspace.held.put name node }
  changeSheet : ∀ workspace name forest, free (.sheet name) → Fits workspace →
    (∀ node ∈ forest, Good node) →
    Fits { workspace with sheets := workspace.sheets.change name fun _ => forest }
  regrow : ∀ workspace (address : Address) node others, free address.root → Fits workspace →
    workspace.nodeAt? address = some node → reached node.id → node.ownsSubEvents = true →
    (∀ child ∈ others, Good child) →
    Fits (workspace.withNodeAt address { node with subEvents := others })

namespace Upkeep

variable {β : Type} [EventKind β] {Fits : Workspace β → Prop} {Good : Node β → Prop}
  {free : Root → Prop} {reached : NodeId → Prop}

theorem destroyForest (upkeep : Upkeep Fits Good free reached) (forest : Forest β) :
    Keeps Fits (onPopulation (Forest.destroy forest)) fun _ => True := by
  apply Keeps.onPopulation
  intro workspace fits
  refine ⟨?_, trivial⟩
  have kept := upkeep.retire workspace (Forest.ids forest) fits
  rwa [← Forest.retire_eq] at kept

theorem destroyNode (upkeep : Upkeep Fits Good free reached) (node : Node β) :
    Keeps Fits (onPopulation node.destroy) fun _ => True := by
  apply Keeps.onPopulation
  intro workspace fits
  refine ⟨?_, trivial⟩
  have kept := upkeep.retire workspace node.ids fits
  rwa [← Node.retire_eq] at kept

theorem heldNode (upkeep : Upkeep Fits Good free reached) {workspace : Workspace β}
    (fits : Fits workspace) {name : String} {node : Node β}
    (found : workspace.held.lookup name = some node) : Good node := by
  apply upkeep.found workspace ⟨.held name, []⟩ node fits
  change (workspace.held.lookup name).bind _ = _
  rw [found]
  rfl

/-! ## Nodes in hand -/

theorem takingNode (upkeep : Upkeep Fits Good free reached) {name : String}
    (isFree : free (.held name)) : Keeps Fits (Workspace.takeNode name) Good := by
  intro workspace fits
  cases found : workspace.held.lookup name with
  | none =>
      rw [takeNode_of_unknown found]
      exact ⟨fits, nofun⟩
  | some node =>
      rw [takeNode_of_known found]
      refine ⟨upkeep.takeNode workspace name isFree fits, ?_⟩
      rintro _ ⟨⟩
      exact upkeep.heldNode fits found

theorem takingNodes (upkeep : Upkeep Fits Good free reached) : ∀ {names : List String},
    (∀ name ∈ names, free (.held name)) →
      Keeps Fits (takeNodes names) fun nodes => ∀ node ∈ nodes, Good node
  | [], _ => .pure (List.forall_mem_nil _)
  | name :: rest, areFree => by
      rw [List.forall_mem_cons] at areFree
      intro workspace fits
      cases found : workspace.held.lookup name with
      | none =>
          rw [takeNodes, bind_of_error (takeNode_of_unknown found)]
          refine ⟨fits, ?_⟩
          rintro _ ⟨⟩
      | some node =>
          have taken := upkeep.takeNode workspace name areFree.1 fits
          have kept := upkeep.takingNodes areFree.2 _ taken
          rcases further : takeNodes rest { workspace with held := workspace.held.without name }
            with ⟨astray | nodes, after⟩
          · rw [further] at kept
            rw [takeNodes_cons_of_error found further]
            refine ⟨(upkeep.destroyNode node after kept.1).1, ?_⟩
            rintro _ ⟨⟩
          · rw [further] at kept
            rw [takeNodes_cons_of_ok found further]
            refine ⟨kept.1, ?_⟩
            rintro _ ⟨⟩
            exact List.forall_mem_cons.mpr ⟨upkeep.heldNode fits found, kept.2 nodes rfl⟩

theorem storingSheet (upkeep : Upkeep Fits Good free reached) {name : String}
    (isFree : free (.sheet name)) {forest : Forest β} (good : ∀ node ∈ forest, Good node) :
    Keeps Fits (storeSheet name forest) fun _ => True := by
  intro workspace fits
  exact upkeep.destroyForest _ _ (upkeep.putSheet workspace name forest isFree fits good)

theorem storingNode (upkeep : Upkeep Fits Good free reached) {name : String}
    (isFree : free (.held name)) {node : Node β} (good : Good node) :
    Keeps Fits (storeNode name node) fun _ => True := by
  intro workspace fits
  exact upkeep.destroyForest _ _ (upkeep.putNode workspace name node isFree fits good)

theorem assembling (upkeep : Upkeep Fits Good free reached) (behavior : β) {names : List String}
    (areFree : ∀ name ∈ names, free (.held name)) :
    Keeps Fits (assemble behavior names) Good := by
  -- the new node is good with any nodes that it may own
  have makes : Keeps Fits (onPopulation (Node.create behavior)) fun node =>
      node.subEvents = [] ∧ ∀ children : Forest β, (∀ child ∈ children, Good child) →
        (node.ownsSubEvents = false → children = []) →
          Good { node with subEvents := children } := by
    apply Keeps.onPopulation
    intro workspace fits
    rcases upkeep.create workspace behavior fits with ⟨kept, good⟩
    exact ⟨kept, rfl, good⟩
  apply makes.bind
  rintro ⟨event, _⟩ ⟨rfl, good⟩
  apply Keeps.tryCatch
  · apply (upkeep.takingNodes areFree).bind
    intro children areGood
    apply Keeps.onPopulation
    intro workspace fits
    rcases withSubEvents_cases ⟨event, []⟩ children workspace.population with
      ⟨owns, built⟩ | ⟨_, built⟩
    · rw [built]
      refine ⟨fits, good children areGood ?_⟩
      intro ownsNone
      exact nomatch owns.symm.trans ownsNone
    · rw [built]
      exact ⟨(upkeep.destroyForest children workspace fits).1,
        good [] (List.forall_mem_nil _) fun _ => rfl⟩
  · intro astray
    exact (upkeep.destroyNode _).bind fun _ _ => .throw astray

/-! ## Edits at an address -/

variable {workspace : Workspace β} {address : Address}

theorem editable (upkeep : Upkeep Fits Good free reached) (fits : Fits workspace)
    {forest : Forest β} (found : workspace.editable? address = some forest) :
    ∀ node ∈ forest, Good node := by
  unfold editable? at found
  split at found
  · exact upkeep.sheet workspace _ forest fits found
  · rw [Option.map_eq_some_iff] at found
    rcases found with ⟨node, isOwner, rfl⟩
    rw [Option.filter_eq_some_iff] at isOwner
    exact upkeep.below node (upkeep.found workspace address node fits isOwner.1)

/-- An edit of the forest at an address keeps up what its own steps keep up, when the forest it
gives is good. -/
theorem editForest? (upkeep : Upkeep Fits Good free reached) (answers : α → Prop)
    (fits : Fits workspace) (isFree : free address.root)
    (reaches : ∀ node, workspace.nodeAt? address = some node → reached node.id)
    {edit : Forest β → Edit β (α × Forest β)}
    (edits : ∀ forest, workspace.editable? address = some forest →
      Fits (edit forest workspace).2 ∧
        ∀ answer new, (edit forest workspace).1 = .ok (answer, new) →
          SameRoot address workspace (edit forest workspace).2 ∧ (∀ node ∈ new, Good node) ∧
            answers answer) :
    Fits (Workspace.editForest? address edit workspace).2 ∧
      ∀ answer, (Workspace.editForest? address edit workspace).1 = .ok (some answer) →
        answers answer := by
  cases found : workspace.editable? address with
  | none =>
      have stays : ∃ result, Workspace.editForest? address edit workspace = (result, workspace) ∧
          ∀ answer, result ≠ .ok (some answer) := editForest?_of_none found
      rcases stays with ⟨result, runs, noAnswer⟩
      rw [runs]
      exact ⟨fits, fun answer same => absurd same (noAnswer answer)⟩
  | some forest =>
      rcases edits forest found with ⟨kept, further⟩
      rcases runs : edit forest workspace with ⟨astray | ⟨answer, new⟩, after⟩
      · rw [runs] at kept
        rw [editForest?_of_error found runs]
        exact ⟨kept, nofun⟩
      · rw [runs] at kept further
        rcases further answer new rfl with ⟨same, good, fine⟩
        have answered : ∀ other, (Except.ok (some answer) : Except Astray (Option α)) =
            .ok (some other) → answers other := by
          rintro _ ⟨⟩
          exact fine
        unfold Workspace.editForest?
        split
        · rw [bind_of_ok (sheet_of_known found), bind_of_ok runs]
          exact ⟨upkeep.changeSheet after _ new isFree kept good, answered⟩
        · next notSheet =>
            rw [editable?] at found
            · rw [Option.map_eq_some_iff] at found
              rcases found with ⟨node, isOwner, rfl⟩
              rw [Option.filter_eq_some_iff] at isOwner
              rw [bind_of_ok (nodeAt_of_some isOwner.1), if_pos isOwner.2, bind_of_ok runs]
              exact ⟨upkeep.regrow after address node new isFree kept
                (same.nodeAt?_eq.trans isOwner.1) (reaches node isOwner.1) isOwner.2 good, answered⟩
            · exact notSheet

theorem editing (upkeep : Upkeep Fits Good free reached) (fits : Fits workspace)
    (isFree : free address.root)
    (reaches : ∀ node, workspace.nodeAt? address = some node → reached node.id)
    {edit : Forest β → Edit β (α × Forest β)}
    (edits : ∀ forest, workspace.editable? address = some forest →
      Fits (edit forest workspace).2 ∧
        ∀ answer new, (edit forest workspace).1 = .ok (answer, new) →
          SameRoot address workspace (edit forest workspace).2 ∧ ∀ node ∈ new, Good node) :
    Fits (Workspace.editForest? address edit workspace).2 := by
  refine (upkeep.editForest? (fun _ => True) fits isFree reaches ?_).1
  intro forest found
  refine ⟨(edits forest found).1, ?_⟩
  intro answer new runs
  have fine := (edits forest found).2 answer new runs
  exact ⟨fine.1, fine.2, trivial⟩

theorem pushing (upkeep : Upkeep Fits Good free reached) (fits : Fits workspace) {name : String}
    (nameFree : free (.held name)) (isFree : free address.root)
    (reaches : ∀ node, workspace.nodeAt? address = some node → reached node.id) :
    Fits (push name address workspace).2 := by
  rw [push]
  cases found : workspace.nodeAt? address with
  | none =>
      rcases nodeAt_of_none found with ⟨astray, runs⟩
      rw [bind_of_error runs]
      exact fits
  | some parent =>
      rw [bind_of_ok (nodeAt_of_some found)]
      cases isHeld : workspace.held.lookup name with
      | none =>
          rw [bind_of_error (takeFor_of_unknown isHeld)]
          exact fits
      | some child =>
          have good := upkeep.heldNode fits isHeld
          have taken := upkeep.takeNode workspace name nameFree fits
          by_cases inside : address.root = .held name
          · rw [bind_of_error (takeFor_of_self isHeld inside)]
            exact (upkeep.destroyNode child _ taken).1
          · have again := (sameRoot_withoutNode inside).nodeAt?_eq.trans found
            rw [bind_of_ok (takeFor_of_ok isHeld inside), bind_of_ok (nodeAt_of_some again),
              Node.pushSubEvent?, Node.editSubEvents?]
            cases owns : parent.ownsSubEvents with
            | true =>
                have below := upkeep.below parent (upkeep.found workspace address parent fits found)
                have isReached := reaches parent found
                apply upkeep.regrow _ address parent _ isFree taken again isReached owns
                exact List.forall_mem_append.mpr ⟨below, List.forall_mem_singleton.mpr good⟩
            | false => exact (upkeep.storingNode nameFree good _ taken).1

theorem inserting (upkeep : Upkeep Fits Good free reached) (fits : Fits workspace) {name : String}
    (nameFree : free (.held name)) (position : Nat) (isFree : free address.root)
    (reaches : ∀ node, workspace.nodeAt? address = some node → reached node.id) :
    Fits (insert? name position address workspace).2 := by
  apply upkeep.editing fits isFree reaches
  intro forest found
  cases isHeld : workspace.held.lookup name with
  | none =>
      rw [bind_of_error (takeFor_of_unknown isHeld)]
      exact ⟨fits, nofun⟩
  | some child =>
      have taken := upkeep.takeNode workspace name nameFree fits
      by_cases inside : address.root = .held name
      · rw [bind_of_error (takeFor_of_self isHeld inside)]
        exact ⟨(upkeep.destroyNode child _ taken).1, nofun⟩
      · rw [bind_of_ok (takeFor_of_ok isHeld inside)]
        refine ⟨taken, ?_⟩
        rintro _ _ ⟨⟩
        refine ⟨sameRoot_withoutNode inside, ?_⟩
        intro node isNode
        rw [Forest.insert, List.mem_insertIdx (Nat.min_le_right _ _)] at isNode
        rcases isNode with rfl | isNode
        · exact upkeep.heldNode fits isHeld
        · exact upkeep.editable fits found node isNode

theorem removing (upkeep : Upkeep Fits Good free reached) (fits : Fits workspace)
    (position : Nat) (isFree : free address.root)
    (reaches : ∀ node, workspace.nodeAt? address = some node → reached node.id) :
    Fits (remove? position address workspace).2 ∧
      ∀ answer, (remove? position address workspace).1 = .ok (some answer) →
        ∀ removed ∈ answer.1, Good removed := by
  apply upkeep.editForest? _ fits isFree reaches
  intro forest found
  have good := upkeep.editable fits found
  cases removes : Forest.remove? position forest with
  | none =>
      refine ⟨fits, ?_⟩
      rintro _ _ ⟨⟩
      exact ⟨.of_eq rfl rfl, good, nofun⟩
  | some outcome =>
      rcases outcome with ⟨node, rest⟩
      refine ⟨fits, ?_⟩
      rintro _ _ ⟨⟩
      rw [Forest.remove?] at removes
      split at removes
      · next isNode =>
          cases removes
          refine ⟨.of_eq rfl rfl, ?_, ?_⟩
          · exact fun other isOther => good other (List.mem_of_mem_eraseIdx isOther)
          · rintro _ ⟨⟩
            exact good node (List.mem_of_getElem? isNode)
      · cases removes

theorem clearing (upkeep : Upkeep Fits Good free reached) (fits : Fits workspace)
    (isFree : free address.root)
    (reaches : ∀ node, workspace.nodeAt? address = some node → reached node.id) :
    Fits (clear? address workspace).2 := by
  apply upkeep.editing fits isFree reaches
  intro forest _
  refine ⟨(upkeep.destroyForest forest workspace fits).1, ?_⟩
  rintro _ _ ⟨⟩
  exact ⟨.of_eq rfl rfl, List.forall_mem_nil _⟩

theorem dropping (upkeep : Upkeep Fits Good free reached) (fits : Fits workspace) {root : Root}
    (isFree : free root) : Fits (Workspace.drop root workspace).2 := by
  cases root with
  | sheet name =>
      rw [Workspace.drop]
      cases found : workspace.sheets.lookup name with
      | none =>
          rw [bind_of_error (takeSheet_of_unknown found)]
          exact fits
      | some forest =>
          rw [bind_of_ok (takeSheet_of_known found)]
          exact (upkeep.destroyForest forest _ (upkeep.takeSheet workspace name isFree fits)).1
  | held name =>
      have drops := (upkeep.takingNode isFree).bind fun node _ => upkeep.destroyNode node
      exact (drops workspace fits).1

theorem findingNode (upkeep : Upkeep Fits Good free reached) (address : Address) :
    Keeps Fits (nodeAt address) Good := by
  intro workspace fits
  cases found : workspace.nodeAt? address with
  | none =>
      rcases nodeAt_of_none found with ⟨astray, runs⟩
      rw [runs]
      exact ⟨fits, nofun⟩
  | some node =>
      rw [nodeAt_of_some found]
      refine ⟨fits, ?_⟩
      rintro _ ⟨⟩
      exact upkeep.found workspace address node fits found

theorem findingForest (upkeep : Upkeep Fits Good free reached) (address : Address) :
    Keeps Fits (forestAt address) fun forest => ∀ node ∈ forest, Good node := by
  intro workspace fits
  cases found : workspace.forestAt? address with
  | none =>
      rcases forestAt_of_none found with ⟨astray, runs⟩
      rw [runs]
      exact ⟨fits, nofun⟩
  | some forest =>
      rw [forestAt_of_some found]
      refine ⟨fits, ?_⟩
      rintro _ ⟨⟩
      unfold forestAt? at found
      split at found
      · exact upkeep.sheet workspace _ forest fits found
      · rw [Option.map_eq_some_iff] at found
        rcases found with ⟨node, isNode, rfl⟩
        exact upkeep.below node (upkeep.found workspace address node fits isNode)

end Upkeep

/-! ## Operations -/

namespace Operation

variable {β : Type} [Behavior β]

/-- The names whose trees an operation puts somewhere, or changes. -/
def roots : Operation β → List Root
  | .build _ names target => .held target :: names.map .held
  | .gather names target => .sheet target :: names.map .held
  | .restore _ _ target | .cloneForest _ _ target => [.sheet target]
  | .alter address .. | .clear address => [address.root]
  | .push name address | .insert name _ address => [.held name, address.root]
  | .remove _ address target => address.root :: (target.map .held).toList
  | .drop root => [root]
  | .cloneNode _ _ target => [.held target]
  | .preprocess _ _ _ externals name => .sheet name :: externals.map fun entry => .sheet entry.2
  | .compile _ _ _ _ externals _ => externals.map fun entry => .sheet entry.2
  | .takeHandle .. | .takeOriginal .. | .copyHandle .. | .publish .. => []

/-- The node that an operation changes or gives other sub-events, if it is at such an address. -/
def edited? (workspace : Workspace β) : Operation β → Option NodeId
  | .alter address .. | .push _ address | .insert _ _ address | .remove _ address _
  | .clear address => (workspace.nodeAt? address).map Node.id
  | _ => none

end Operation

section

variable {β : Type} [Behavior β] {Fits : Workspace β → Prop} {Good : Node β → Prop}
  {free : Root → Prop} {reached : NodeId → Prop} {workspace : Workspace β}

/-- An operation keeps up what its steps keep up. What it means to alter a node is left open. -/
theorem Upkeep.edit (upkeep : Upkeep Fits Good free reached) (fits : Fits workspace)
    (operation : Operation β) (noPass : operation.isPass = false)
    (areFree : ∀ root ∈ operation.roots, free root)
    (reaches : ∀ id ∈ operation.edited? workspace, reached id)
    (alters : ∀ address behavior disabled folded,
      operation = .alter address behavior disabled folded →
      ∀ node, workspace.nodeAt? address = some node →
        Fits (workspace.withNodeAt address
          (node.mapEvent fun event => { event with behavior, disabled, folded }))) :
    Fits (operation.edit workspace).2 := by
  cases operation with
  | build behavior names target =>
      simp only [Operation.roots, List.forall_mem_cons, List.forall_mem_map] at areFree
      exact (upkeep.assembling behavior areFree.2).fits_bind
        (fun _ good => upkeep.storingNode areFree.1 good) fits
  | gather names target =>
      simp only [Operation.roots, List.forall_mem_cons, List.forall_mem_map] at areFree
      exact (upkeep.takingNodes areFree.2).fits_bind
        (fun _ good => upkeep.storingSheet areFree.1 good) fits
  | restore registry snapshot target =>
      have restores : Keeps Fits (onPopulation (snapshot.restore registry)) fun result =>
          ∀ forest, result = .ok forest → ∀ node ∈ forest, Good node :=
        .onPopulation fun workspace fits => upkeep.restore workspace registry snapshot fits
      rw [Operation.edit]
      refine restores.fits_bind ?_ fits
      rintro (error | forest) good
      · exact .pure trivial
      · exact upkeep.storingSheet (areFree _ (List.mem_singleton_self _)) (good forest rfl)
  | alter address behavior disabled folded =>
      rw [Operation.edit]
      cases found : workspace.nodeAt? address with
      | none =>
          rcases nodeAt_of_none found with ⟨astray, runs⟩
          rw [bind_of_error runs]
          exact fits
      | some node =>
          rw [bind_of_ok (nodeAt_of_some found)]
          exact alters address behavior disabled folded rfl node found
  | push name address =>
      simp only [Operation.roots, List.forall_mem_cons] at areFree
      rw [Operation.edit, snd_andReturn]
      exact upkeep.pushing fits areFree.1 areFree.2.1 fun node found =>
        reaches _ (Option.mem_map_of_mem _ found)
  | insert name position address =>
      simp only [Operation.roots, List.forall_mem_cons] at areFree
      rw [Operation.edit, snd_andReturn]
      exact upkeep.inserting fits areFree.1 position areFree.2.1 fun node found =>
        reaches _ (Option.mem_map_of_mem _ found)
  | remove position address target =>
      simp only [Operation.roots, List.forall_mem_cons] at areFree
      have removed := upkeep.removing fits position areFree.1 fun node found =>
        reaches _ (Option.mem_map_of_mem _ found)
      rw [Operation.edit]
      rcases runs : remove? position address workspace with ⟨astray | answer, after⟩
      · rw [runs] at removed
        rw [bind_of_error runs]
        exact removed.1
      · rw [runs] at removed
        rw [bind_of_ok runs]
        rcases answer with _ | ⟨_ | node, rest⟩
        · exact removed.1
        · exact removed.1
        · cases target with
          | none => exact (upkeep.destroyNode node after removed.1).1
          | some name =>
              have good := removed.2 _ rfl node rfl
              exact (upkeep.storingNode (areFree.2 _ List.mem_cons_self) good after removed.1).1
  | clear address =>
      rw [Operation.edit, snd_andReturn]
      exact upkeep.clearing fits (areFree _ (List.mem_singleton_self _)) fun node found =>
        reaches _ (Option.mem_map_of_mem _ found)
  | drop root => exact upkeep.dropping fits (areFree _ (List.mem_singleton_self _))
  | cloneNode address remembering target =>
      rw [Operation.edit]
      refine (upkeep.findingNode address).fits_bind ?_ fits
      intro node isGood
      have clones : Keeps Fits (onPopulation
          (if remembering then node.cloneRemembering else node.clone)) Good :=
        .onPopulation fun workspace fits => upkeep.copyNode workspace node remembering fits isGood
      exact clones.bind fun _ good =>
        upkeep.storingNode (areFree _ (List.mem_singleton_self _)) good
  | cloneForest address remembering target =>
      rw [Operation.edit]
      refine (upkeep.findingForest address).fits_bind ?_ fits
      intro forest areGood
      have clones : Keeps Fits (onPopulation
          (if remembering then Forest.cloneRemembering forest else Forest.clone forest))
          fun copies => ∀ copy ∈ copies, Good copy :=
        .onPopulation fun workspace fits =>
          upkeep.copyForest workspace forest remembering fits areGood
      exact clones.bind fun _ good =>
        upkeep.storingSheet (areFree _ (List.mem_singleton_self _)) good
  | preprocess | compile => cases noPass
  | takeHandle | takeOriginal | copyHandle | publish => exact fits

end

end EventSheet
