import EventSheet.Proofs.Lineage.Frame
import EventSheet.Proofs.Lineage.Operations
import EventSheet.Proofs.Ownership
namespace EventSheet

/-! # Owners of sub-events

A kind that owns no sub-events never comes to have any, whatever is done in an editor, as long as
no event changes what it can own and nothing else is spliced in. A node that is refused goes back
to where it was. -/

variable {β : Type}

/-! ## Passes -/

/-- Preprocessing an event changes nothing about what it can own, and brings only nodes that keep
to that. -/
structure Behavior.KeepsOwnership (β : Type) [Behavior β] : Prop where
  sameOwner : ∀ (behavior : β) siblings state,
    EventKind.ownsSubEvents (Behavior.preprocess behavior siblings state).1.1 =
      EventKind.ownsSubEvents behavior
  brings : ∀ (behavior : β) (siblings : Siblings β) (state : PassState β),
    Forest.Owned siblings.preceding → Forest.Owned siblings.after →
      Forest.Owned state.context.sheets →
      Forest.Owned (Behavior.preprocess behavior siblings state).1.2.given ∧
        Forest.Owned (Behavior.preprocess behavior siblings state).2.context.sheets

/-- A sheet that a link can include is one of those of the context. -/
theorem PreprocessContext.external?_subset {context : PreprocessContext β} {target : String}
    {sheet : Forest β} (known : context.external? target = some sheet) :
    sheet ⊆ context.sheets := by
  rcases List.lookup_eq_some_iff.mp known with ⟨before, behind, split, _⟩
  intro node isNode
  exact List.mem_flatMap.mpr
    ⟨(target, sheet), split ▸ List.mem_append_right _ List.mem_cons_self, isNode⟩

theorem Kind.Builtin.keepsOwnership : Behavior.KeepsOwnership Builtin where
  sameOwner := by
    intro builtin siblings state
    cases builtin <;> rfl
  brings := by
    intro builtin siblings state _ _ sheets
    cases builtin with
    | standard _ => exact ⟨trivial, sheets⟩
    | comment _ => exact ⟨trivial, sheets⟩
    | branch _ => exact ⟨trivial, sheets⟩
    | repetition _ => exact ⟨trivial, sheets⟩
    | link link =>
        have asked : Behavior.preprocess (Builtin.link link) siblings state =
            ((Builtin.link link, (link.preprocess state).1), (link.preprocess state).2) := rfl
        rw [asked]
        cases known : state.context.external? link.target with
        | none =>
            rw [Link.preprocess_unknown known]
            exact ⟨trivial, sheets⟩
        | some sheet =>
            by_cases within : state.context.linkExpansions < state.context.maxLinkExpansions
            · rw [Link.preprocess_expanded known within, Forest.cloneRemembering_eq_copy]
              refine ⟨Forest.Owned.copy _ ?_ _, sheets⟩
              rw [Forest.owned_iff_forall] at sheets ⊢
              intro node isNode
              exact sheets node (PreprocessContext.external?_subset known isNode)
            · rw [Link.preprocess_exhausted known (Nat.le_of_not_lt within)]
              exact ⟨trivial, sheets⟩

theorem Forest.Owned.siblings [EventKind β] {forest : Forest β} (owned : Forest.Owned forest)
    (cursor : Nat) :
    Forest.Owned (Siblings.around forest cursor).preceding ∧
      Forest.Owned (Siblings.around forest cursor).after := by
  rw [Forest.owned_iff_forall] at owned
  rw [Forest.owned_iff_forall, Forest.owned_iff_forall]
  constructor
  · intro node isNode
    exact owned node (List.mem_of_mem_take (List.mem_reverse.mp isNode))
  · exact fun node isNode => owned node (List.mem_of_mem_drop isNode)

theorem Forest.Owned.splice [EventKind β] {forest nodes : Forest β} (owned : Forest.Owned forest)
    (nodesOwned : Forest.Owned nodes) (cursor : Nat) :
    Forest.Owned (forest.splice cursor nodes) := by
  rw [owned_iff_forall] at owned
  have before : Forest.Owned (forest.take cursor) :=
    owned_iff_forall.mpr fun node isNode => owned node (List.mem_of_mem_take isNode)
  have behind : Forest.Owned (forest.drop (cursor + 1)) :=
    owned_iff_forall.mpr fun node isNode => owned node (List.mem_of_mem_drop isNode)
  exact (before.append nodesOwned).append behind

namespace Preprocess

variable [Behavior β] {forest result : Forest β} {cursor : Nat} {state after : PassState β}
  {calls : List (Call β (PassState β))}

theorem owned_of_visit (keeps : Behavior.KeepsOwnership β) {event : Event β}
    {siblings : Siblings β} {behavior : β} {splice : Splice β} {visited : PassState β}
    (visit : Pass.visitor.visit event siblings state = ((behavior, splice), visited))
    (preceding : Forest.Owned siblings.preceding) (behind : Forest.Owned siblings.after)
    (sheets : Forest.Owned state.context.sheets) :
    EventKind.ownsSubEvents behavior = EventKind.ownsSubEvents event.behavior ∧
      Forest.Owned splice.given ∧ Forest.Owned visited.context.sheets := by
  have sameOwner := keeps.sameOwner event.behavior siblings (state.asking event)
  have brings := keeps.brings event.behavior siblings (state.asking event) preceding behind sheets
  rcases outcome : Behavior.preprocess event.behavior siblings (state.asking event) with
    ⟨⟨changed, given⟩, after⟩
  have visits : Pass.visitor.visit event siblings state = ((changed, given), after.settled) := by
    simp only [Pass.visitor, bind, StateT.bind]
    exact congrArg (fun result => (result.1, result.2.settled)) outcome
  rw [visits] at visit
  cases visit
  rw [outcome] at sameOwner brings
  exact ⟨sameOwner, brings⟩

/-- A pass keeps to ownership when the kinds do. -/
theorem Traverses.keepsOwnership (keeps : Behavior.KeepsOwnership β)
    (traverses : Traverses Pass.visitor forest cursor state calls result after)
    (sheets : Forest.Owned state.context.sheets) (owned : Forest.Owned forest) :
    Forest.Owned result ∧ Forest.Owned after.context.sheets := by
  induction traverses with
  | finished _ => exact ⟨owned, sheets⟩
  | skip _ _ _ induction => exact induction sheets owned
  | @stay forest subEvents result inserted cursor node behavior splice state visited below after
      inner outer found enabled visit stays inside onward insideInduction onwardInduction =>
      have siblings := owned.siblings cursor
      rcases owned_of_visit keeps visit siblings.1 siblings.2 sheets with
        ⟨sameOwner, given, visitedSheets⟩
      rw [Splice.given_of_inserted stays] at given
      have nodeOwned := (Node.owned_iff node).mp
        (Forest.owned_iff_forall.mp owned node (List.mem_of_getElem? found))
      rcases insideInduction visitedSheets nodeOwned.2 with ⟨subOwned, belowSheets⟩
      apply onwardInduction belowSheets
      apply owned.splice
      refine ⟨⟨?_, subOwned⟩, given⟩
      intro childless
      -- a node that owns no sub-events has none, so there is nothing to walk below it
      rw [nodeOwned.1 (sameOwner.symm.trans childless)] at inside
      exact inside.of_nil.2.1
  | @go forest result nodes cursor node behavior splice state visited after calls found enabled
      visit goes onward induction =>
      have siblings := owned.siblings cursor
      rcases owned_of_visit keeps visit siblings.1 siblings.2 sheets with ⟨_, given, visitedSheets⟩
      rw [Splice.given_of_replacement goes] at given
      exact induction visitedSheets (owned.splice given _)

end Preprocess

/-- Preprocessing keeps to ownership when the sheets that links can include do. -/
theorem Forest.Owned.preprocess [Behavior β] (keeps : Behavior.KeepsOwnership β)
    {forest result : Forest β} (owned : Forest.Owned forest) {state after : PassState β}
    (sheets : Forest.Owned state.context.sheets) {fuel count : Nat}
    (ends : forest.preprocess fuel state = some ((result, count), after)) :
    Forest.Owned result := by
  rw [Forest.preprocess_eq_recorded, Option.map_eq_some_iff] at ends
  rcases ends with ⟨⟨⟨final, visits⟩, last, calls⟩, passes, same⟩
  cases same
  exact ((Forest.traverses_of_recorded passes).keepsOwnership keeps sheets owned).1

/-! ## Steps -/

section

variable [EventKind β]

/-- A node has no sub-events that it does not own. -/
def Node.Rightful (node : Node β) : Prop := node.ownsSubEvents = false → node.subEvents = []

mutual
theorem Node.owned_iff_throughout : ∀ {node : Node β},
    node.Owned ↔ Forest.Throughout Node.Rightful [node]
  | ⟨event, subEvents⟩ => by
      rw [Node.owned_iff, Forest.throughout_singleton, Forest.owned_iff_throughout]
      rfl

theorem Forest.owned_iff_throughout : ∀ {forest : List (Node β)},
    Forest.Owned forest ↔ Forest.Throughout Node.Rightful forest
  | [] => ⟨fun _ => Forest.throughout_nil, fun _ => trivial⟩
  | head :: tail => by
      rw [Forest.throughout_cons, Forest.Owned, head.owned_iff_throughout,
        Forest.owned_iff_throughout]
end

/-- What is made or copied is owned, and sub-events are only given to nodes that own them. -/
theorem tends_rightful : Tends (Node.Rightful (β := β)) 0 fun _ => True where
  created := fun _ _ _ _ owns => owns
  restored := by
    intro registry snapshot population forest _ restored
    exact Forest.owned_iff_throughout.mp (Snapshot.owned_of_restore restored)
  copied := by
    intro link forest population _ throughout
    rw [← Forest.owned_iff_throughout] at throughout ⊢
    exact throughout.copy link population
  relinked := fun _ _ _ rightful => rightful
  regrown := by
    intro node others _ owns _ ownsNone
    exact nomatch owns.symm.trans ownsNone
  around := by
    intro node others id _ isInside rightful ownsNone
    rw [rightful ownsNone] at isInside
    exact nomatch isInside

end

namespace Workspace

variable [Behavior β] {workspace : Workspace β}

/-- No node in the workspace has sub-events that it does not own. -/
abbrev AllOwned (workspace : Workspace β) : Prop := workspace.Tended Node.Rightful 0

theorem AllOwned.withPopulation (owned : workspace.AllOwned) (population : Population) :
    ({ workspace with population } : Workspace β).AllOwned :=
  ⟨⟨owned.distinct.sheets, owned.distinct.held⟩, Nat.zero_le _, owned.sheets, owned.held⟩

theorem keeps_onPopulation {α : Type} (action : StateM Population α) :
    Keeps (@AllOwned β _) (onPopulation action) fun _ => True :=
  Keeps.onPopulation fun _ owned => ⟨owned.withPopulation _, trivial⟩

theorem keeps_holding {α : Type} {answers : α → Prop} (context : PreprocessContext β)
    {action : Edit β α} (keeps : Keeps AllOwned action answers) :
    Keeps AllOwned (holding context action) answers :=
  keeps.tryCatch fun astray => (keeps_onPopulation _).bind fun _ _ => .throw astray

/-- Sheets that are registered are as they were in the workspace. -/
theorem keeps_withExternals : ∀ (pairs : List (String × String)) {context : PreprocessContext β},
    Forest.Owned context.sheets →
      Keeps AllOwned (withExternals context pairs) fun after => Forest.Owned after.sheets
  | [], _, sheets => .pure sheets
  | (target, name) :: rest, context, sheets => by
      have takes : Keeps AllOwned (takeSheet name) (Forest.Owned (β := β)) := by
        intro workspace owned
        cases found : workspace.sheets.lookup name with
        | none =>
            rw [takeSheet_of_unknown found]
            exact ⟨owned, nofun⟩
        | some forest =>
            rw [takeSheet_of_known found]
            refine ⟨tends_rightful.upkeep.takeSheet workspace name trivial owned, ?_⟩
            rintro _ ⟨⟩
            exact Forest.owned_iff_throughout.mpr (owned.lookup_sheet found)
      apply (keeps_holding context takes).bind
      intro events eventsOwned
      apply (keeps_onPopulation _).bind
      intro _ _
      apply keeps_withExternals rest
      rw [Forest.owned_iff_forall] at sheets eventsOwned ⊢
      intro node isNode
      rcases List.mem_flatMap.mp isNode with ⟨entry, isEntry, isMember⟩
      rcases List.mem_append.mp isEntry with isOther | isNew
      · exact sheets node (List.mem_flatMap.mpr ⟨entry, (List.mem_filter.mp isOther).1, isMember⟩)
      · rw [List.mem_singleton.mp isNew] at isMember
        exact eventsOwned node isMember

theorem keeps_preprocess (keeps : Behavior.KeepsOwnership β) (fuel : Nat)
    {context : PreprocessContext β} (sheets : Forest.Owned context.sheets) (name : String) :
    Keeps AllOwned (preprocess fuel context name) fun _ => True := by
  intro workspace owned
  refine ⟨?_, fun _ _ => trivial⟩
  cases found : workspace.sheets.lookup name with
  | none =>
      rw [preprocess_of_unknown found]
      exact (keeps_onPopulation context.destroyExternals workspace owned).1
  | some forest =>
      rw [preprocess_of_known found]
      rcases passes : forest.preprocess fuel ⟨context, workspace.population⟩ with
        _ | ⟨⟨result, visited⟩, state⟩
      · exact owned
      · have forestOwned := Forest.owned_iff_throughout.mpr (owned.lookup_sheet found)
        have resultOwned := forestOwned.preprocess keeps sheets passes
        apply tends_rightful.upkeep.changeSheet _ name result trivial
          (owned.withPopulation state.population)
        exact Forest.throughout_iff_forall.mp (Forest.owned_iff_throughout.mp resultOwned)

theorem keeps_compile (fuel : Nat) (settings : Settings) (context : PreprocessContext β)
    (address : Address) : Keeps AllOwned (compile fuel settings context address) fun _ => True := by
  intro workspace owned
  refine ⟨?_, fun _ _ => trivial⟩
  cases found : workspace.forestAt? address with
  | none =>
      rcases compile_of_none found with ⟨astray, runs⟩
      rw [runs]
      exact (keeps_onPopulation context.destroyExternals workspace owned).1
  | some forest =>
      rw [compile_of_some found]
      rcases compileEvents fuel settings context forest workspace.population with _ | ⟨code, final⟩
      · exact owned
      · exact owned.withPopulation final

/-- What an operation is not to change: whether a node can own sub-events. -/
def Steady (workspace : Workspace β) : Operation β → Prop
  | .alter address behavior _ _ => ∀ node, workspace.nodeAt? address = some node →
      EventKind.ownsSubEvents behavior = node.ownsSubEvents
  | _ => True

theorem AllOwned.edit (keeps : Behavior.KeepsOwnership β) (owned : workspace.AllOwned)
    {operation : Operation β} (steady : workspace.Steady operation) :
    (operation.edit workspace).2.AllOwned := by
  cases isPass : operation.isPass with
  | false =>
      apply tends_rightful.edit owned isPass fun _ _ => trivial
      rintro address behavior disabled folded rfl node found rightful ownsNone
      exact rightful ((steady node found).symm.trans ownsNone)
  | true =>
      have read : (get : Edit β (Workspace β)) workspace = (.ok workspace, workspace) := rfl
      have nothing : ∀ scope budget, Forest.Owned
          ({ scope, maxLinkExpansions := budget } : PreprocessContext β).sheets :=
        fun _ _ => trivial
      -- a pass that does not end leaves the workspace as it was
      cases operation with
      | preprocess fuel scope budget externals name =>
          rw [Operation.edit, bind_of_ok read]
          refine (keeps_withExternals externals (nothing scope budget)).fits_bind ?_ owned
          intro context sheets
          apply (keeps_preprocess keeps fuel sheets name).bind
          rintro (_ | ⟨visited, context⟩) _
          · exact .set owned
          · exact keeps_onPopulation context.destroyExternals
      | compile fuel settings scope budget externals address =>
          rw [Operation.edit, bind_of_ok read]
          refine (keeps_withExternals externals (nothing scope budget)).fits_bind ?_ owned
          intro context _
          apply (keeps_compile fuel settings context address).bind
          rintro (_ | code) _
          · exact .set owned
          · exact .pure trivial
      | _ => cases isPass

/-! ## Reachable workspaces -/

/-- What can be done to a workspace: an operation, or any edit of the forest at an address, which
may make nodes and destroy them. -/
inductive Act (β : Type) where
  | operate (operation : Operation β)
  | rearrange (address : Address) (edit : Forest β → StateM Population (Forest β))

namespace Act

def run (workspace : Workspace β) : Act β → Workspace β
  | operate operation => (operation.edit workspace).2
  | rearrange address edit =>
      (editForest? address (fun forest => do
        let changed ← onPopulation (edit forest)
        return ((), changed)) workspace).2

/-- The act changes for no node whether it can own sub-events, and puts in only nodes that have
none they do not own. -/
def Fair (workspace : Workspace β) : Act β → Prop
  | operate operation => workspace.Steady operation
  | rearrange _ edit => ∀ forest population, Forest.Owned forest →
      Forest.Owned (edit forest population).1

end Act

/-- A workspace that fair acts lead to from the empty one. -/
inductive Reachable : Workspace β → Prop
  | empty : Reachable {}
  | act {workspace : Workspace β} (act : Act β) (reached : Reachable workspace)
      (fair : act.Fair workspace) : Reachable (act.run workspace)

theorem AllOwned.run (keeps : Behavior.KeepsOwnership β) (owned : workspace.AllOwned)
    {act : Act β} (fair : act.Fair workspace) : (act.run workspace).AllOwned := by
  cases act with
  | operate operation => exact owned.edit keeps fair
  | rearrange address edit =>
      apply tends_rightful.upkeep.editing owned trivial fun _ _ => trivial
      intro forest found
      refine ⟨owned.withPopulation _, ?_⟩
      rintro _ _ ⟨⟩
      refine ⟨.of_eq rfl rfl, ?_⟩
      have good := tends_rightful.upkeep.editable owned found
      rw [← Forest.throughout_iff_forall, ← Forest.owned_iff_throughout] at good
      exact Forest.throughout_iff_forall.mp
        (Forest.owned_iff_throughout.mp (fair forest workspace.population good))

theorem Reachable.allOwned (keeps : Behavior.KeepsOwnership β) (reachable : Reachable workspace) :
    workspace.AllOwned := by
  induction reachable with
  | empty => exact ⟨⟨List.nodup_nil, List.nodup_nil⟩, Nat.zero_le _, nofun, nofun⟩
  | act act _ fair induction => exact induction.run keeps fair

/-- A node that is pushed below one that cannot own it goes back to its name, and nothing else
changes. -/
theorem push_of_refused {name : String} {address : Address} {parent child : Node β}
    (found : workspace.nodeAt? address = some parent) (ownsNone : parent.ownsSubEvents = false)
    (isHeld : workspace.held.lookup name = some child) (elsewhere : address.root ≠ .held name) :
    push name address workspace =
      (.ok (some child),
        { workspace with held := (workspace.held.without name).put name child }) := by
  have again := (sameRoot_withoutNode elsewhere).nodeAt?_eq.trans found
  have refused : parent.pushSubEvent? child = none := if_neg (ownsNone ▸ Bool.false_ne_true)
  have gone : (workspace.held.without name).lookup name = none := Named.lookup_without_self _ _
  have stored : storeNode name child { workspace with held := workspace.held.without name } =
      (.ok (), { workspace with held := (workspace.held.without name).put name child }) := by
    change (_, { workspace with
      population := (Forest.destroy ((workspace.held.without name).lookup name).toList _).2
      held := (workspace.held.without name).put name child }) = _
    rw [gone]
    rfl
  rw [push, bind_of_ok (nodeAt_of_some found), bind_of_ok (takeFor_of_ok isHeld elsewhere),
    bind_of_ok (nodeAt_of_some again), refused]
  exact bind_of_ok stored

/-- In every workspace that can be reached, a node of a kind that owns no sub-events has none. What
is pushed below it is handed back as it was, and everything else stays as it was too. -/
theorem childless_own_none (keeps : Behavior.KeepsOwnership β) (reachable : Reachable workspace) :
    (∀ node ∈ Forest.subtrees workspace.nodes,
      node.ownsSubEvents = false → node.subEvents = []) ∧
      ∀ name address parent child, workspace.nodeAt? address = some parent →
        parent.ownsSubEvents = false → workspace.held.lookup name = some child →
        address.root ≠ .held name →
          ∃ after, push name address workspace = (.ok (some child), after) ∧
            after.population = workspace.population ∧ after.sheets = workspace.sheets ∧
            (∀ other, after.held.lookup other = workspace.held.lookup other) ∧
            after.nodeAt? address = some parent := by
  refine ⟨(reachable.allOwned keeps).throughout, ?_⟩
  intro name address parent child found ownsNone isHeld elsewhere
  have held : ∀ other, ((workspace.held.without name).put name child).lookup other =
      workspace.held.lookup other := by
    intro other
    by_cases same : other = name
    · rw [same, Named.lookup_put_self, isHeld]
    · rw [Named.lookup_put_of_ne _ _ same, Named.lookup_without_of_ne _ same]
  refine ⟨_, push_of_refused found ownsNone isHeld elsewhere, rfl, rfl, held, ?_⟩
  have same : SameRoot address workspace
      { workspace with held := (workspace.held.without name).put name child } :=
    sameRoot_of_lookup (fun _ _ => rfl) fun other _ => held other
  exact same.nodeAt?_eq.trans found

/-- A comment and a song of two verses in reverse order. -/
def notebook : Workspace Kind.Builtin :=
  Act.run (Act.run (Act.run (Act.run (Act.run {}
    (.operate (.build (.comment {}) [] "note")))
    (.operate (.build (.standard {}) [] "first")))
    (.operate (.build (.standard {}) [] "second")))
    (.operate (.build (.standard {}) ["first", "second"] "song")))
    (.rearrange ⟨.held "song", []⟩ fun forest => pure forest.reverse)

theorem childless_own_none_notebook :
    Behavior.KeepsOwnership Kind.Builtin ∧ Reachable notebook ∧
      Forest.ids (notebook.treesAt (.held "song")) = [4, 3, 2] ∧
      ∃ parent child after, notebook.nodeAt? ⟨.held "note", []⟩ = some parent ∧
        parent.ownsSubEvents = false ∧ child.ids = [4, 3, 2] ∧
        push "song" ⟨.held "note", []⟩ notebook = (.ok (some child), after) ∧
        after.held.lookup "song" = some child ∧
        after.nodeAt? ⟨.held "note", []⟩ = some parent := by
  have reachable : Reachable notebook := by
    apply Reachable.act
    · exact .act _ (.act _ (.act _ (.act _ .empty trivial) trivial) trivial) trivial
    · intro forest population owned
      rw [Forest.owned_iff_forall] at owned ⊢
      exact fun node isNode => owned node (List.mem_reverse.mp isNode)
  have refuses := (childless_own_none Kind.Builtin.keepsOwnership reachable).2
  rcases refuses "song" ⟨.held "note", []⟩ _ _ rfl rfl rfl (by decide) with
    ⟨after, pushes, -, -, held, kept⟩
  exact ⟨Kind.Builtin.keepsOwnership, reachable, rfl, _, _, after, rfl, rfl, rfl, pushes,
    (held "song").trans rfl, kept⟩

end Workspace

end EventSheet
