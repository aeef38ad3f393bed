import EventSheet.Proofs.Lineage.Pass
import EventSheet.Proofs.Traversal.LinkBudget
namespace EventSheet

/-! # Where the events of a pass come from

A pass over copies meets nothing but copies: those it began with and those that links brought. Each
remembers the event it was made from. The pass destroys only what is newer than these, so a copy
stands for the event it was made from as long as the pass goes on. -/

variable {β : Type}

/-! ## Copies of events -/

/-- The event is a copy of the source and remembers it. -/
def Event.IsCopyOf (event source : Event β) : Prop :=
  event = { source with id := event.id, remembered := some source.id }

namespace Event.IsCopyOf

variable {event source : Event β}

theorem remembered_eq (copies : event.IsCopyOf source) : event.remembered = some source.id :=
  congrArg Event.remembered copies

theorem behavior_eq (copies : event.IsCopyOf source) : event.behavior = source.behavior :=
  (congrArg Event.behavior copies).trans rfl

/-- A copy stands for its source while that exists. -/
theorem sourceId_eq (copies : event.IsCopyOf source) {population : Population}
    (alive : population.isAlive source.id = true) : event.sourceId population = source.id := by
  rw [sourceId, remembered?, Population.resolve, copies.remembered_eq,
    Option.filter_some_pos alive, Option.getD_some]

end Event.IsCopyOf

/-- A copy of one of the sources, with an id that is not below the first. -/
def Event.CopiesOneOf (sources : List (Event β)) (first : NodeId) (event : Event β) : Prop :=
  first ≤ event.id ∧ ∃ source ∈ sources, event.IsCopyOf source

theorem Event.CopiesOneOf.mono {sources others : List (Event β)} {first earlier : NodeId}
    {event : Event β} (copies : event.CopiesOneOf sources first)
    (isSource : ∀ source ∈ sources, source ∈ others) (before : earlier ≤ first) :
    event.CopiesOneOf others earlier := by
  rcases copies with ⟨new, source, isOne, isCopy⟩
  exact ⟨Nat.le_trans before new, source, isSource source isOne, isCopy⟩

mutual
theorem Node.copiesOneOf_copy : ∀ (node : Node β) (population : Population),
    ∀ event ∈ (node.copy Event.itself population).1.members,
      event.CopiesOneOf node.members population.nextId
  | ⟨event, subEvents⟩, population => by
      have enrolled : (event.copy Event.itself population).2.nextId = population.nextId + 1 :=
        Population.nextId_enroll _ _
      have below := Forest.copiesOneOf_copy subEvents (event.copy Event.itself population).2
      intro copied isCopied
      rcases List.mem_cons.mp isCopied with rfl | isBelow
      · exact ⟨Nat.le_refl _, event, List.mem_cons_self, rfl⟩
      · apply (below copied isBelow).mono
        · exact fun _ isSource => List.mem_cons_of_mem _ isSource
        · rw [enrolled]
          exact Nat.le_succ _

/-- Copies that remember their sources are new, and each is a copy of one of the events. -/
theorem Forest.copiesOneOf_copy : ∀ (forest : List (Node β)) (population : Population),
    ∀ event ∈ Forest.members (Forest.copy Event.itself forest population).1,
      event.CopiesOneOf (Forest.members forest) population.nextId
  | [], _ => List.forall_mem_nil _
  | head :: tail, population => by
      have first := Node.copiesOneOf_copy head population
      have rest := Forest.copiesOneOf_copy tail (head.copy Event.itself population).2
      intro copied isCopied
      rcases List.mem_append.mp isCopied with isHead | isTail
      · exact (first copied isHead).mono (fun _ isSource => List.mem_append_left _ isSource)
          (Nat.le_refl _)
      · exact (rest copied isTail).mono (fun _ isSource => List.mem_append_right _ isSource)
          (Exchange.copyNode Event.itself head population).grows
end

/-! ## Who is spared -/

/-- From one population to the next nothing happened to the nodes below an id, and no id below it
will be given out. -/
structure Population.Spares (first : NodeId) (before after : Population) : Prop where
  grows : first ≤ before.nextId → first ≤ after.nextId
  spared : ∀ id, id < first → first ≤ before.nextId → after.isAlive id = before.isAlive id

namespace Population.Spares

variable {first : NodeId} {before between after : Population}

theorem refl (population : Population) : Spares first population population where
  grows := id
  spared := fun _ _ _ => rfl

theorem trans (earlier : Spares first before between) (later : Spares first between after) :
    Spares first before after where
  grows := fun given => later.grows (earlier.grows given)
  spared := fun id below given =>
    (later.spared id below (earlier.grows given)).trans (earlier.spared id below given)

theorem enroll (population : Population) (sample : Sample) :
    Spares first population (Population.enroll sample population).2 where
  grows := by
    rw [nextId_enroll]
    exact Nat.le_succ_of_le
  spared := by
    intro id below given
    rw [isAlive_enroll, decide_eq_false (Nat.ne_of_lt (Nat.lt_of_lt_of_le below given)),
      Bool.false_or]

theorem retireAll (population : Population) {ids : List NodeId} (new : ∀ id ∈ ids, first ≤ id) :
    Spares first population (population.retireAll ids) where
  grows := by
    rw [nextId_retireAll]
    exact id
  spared := by
    intro id below _
    have other : id ∉ ids := fun isOne => Nat.not_lt_of_le (new id isOne) below
    rw [isAlive_retireAll, decide_eq_true other, Bool.and_true]

end Population.Spares

mutual
theorem Node.spares_copy (link : Event β → Option NodeId) (first : NodeId) : ∀ (node : Node β)
    (population : Population), Population.Spares first population (node.copy link population).2
  | ⟨event, subEvents⟩, population =>
      (Population.Spares.enroll population (population.sample event.id)).trans
        (Forest.spares_copy link first subEvents _)

/-- Copying nodes leaves all others as they are. -/
theorem Forest.spares_copy (link : Event β → Option NodeId) (first : NodeId) :
    ∀ (forest : List (Node β)) (population : Population),
      Population.Spares first population (Forest.copy link forest population).2
  | [], population => Population.Spares.refl population
  | head :: tail, population =>
      (Node.spares_copy link first head population).trans (Forest.spares_copy link first tail _)
end

/-! ## Members at the cursor -/

namespace Forest

theorem mem_members_of_found {forest : Forest β} {cursor : Nat} {node : Node β}
    (found : forest[cursor]? = some node) {event : Event β} (isMember : event ∈ node.members) :
    event ∈ members forest := by
  rw [← List.take_append_drop cursor forest, members_append, drop_of_found found, members]
  exact List.mem_append_right _ (List.mem_append_left _ isMember)

theorem mem_members_splice {forest nodes : Forest β} {cursor : Nat} {event : Event β}
    (isMember : event ∈ members (forest.splice cursor nodes)) :
    event ∈ members forest ∨ event ∈ members nodes := by
  rw [splice, members_append, members_append, List.mem_append, List.mem_append] at isMember
  rcases isMember with (isBefore | isNew) | isBehind
  · rw [← List.take_append_drop cursor forest, members_append]
    exact .inl (List.mem_append_left _ isBefore)
  · exact .inr isNew
  · rw [← List.take_append_drop (cursor + 1) forest, members_append]
    exact .inl (List.mem_append_right _ isBehind)

end Forest

/-- The sheet a link includes is one of those of the context. -/
theorem PreprocessContext.mem_sheets {context : PreprocessContext β} {target : String}
    {sheet : Forest β} (known : context.external? target = some sheet) {event : Event β}
    (isMember : event ∈ Forest.members sheet) : event ∈ Forest.members context.sheets := by
  rw [external?] at known
  rw [sheets]
  revert known
  induction context.externals with
  | nil => exact fun known => nomatch known
  | cons head tail induction =>
      intro known
      rw [List.flatMap_cons, Forest.members_append]
      rw [List.lookup_cons] at known
      split at known
      · cases known
        exact List.mem_append_left _ isMember
      · exact List.mem_append_right _ (induction known)

/-! ## The pass -/

namespace Preprocess

open Kind (Builtin Link)

variable {forest result : Forest Builtin} {cursor : Nat} {state after : PassState Builtin}
  {calls : List (Call Builtin (PassState Builtin))} {sources : List (Event Builtin)}
  {first : NodeId}

/-- What a state of a pass has to do with the events the pass works on copies of. -/
structure WorksOn (sources : List (Event Builtin)) (first : NodeId) (state : PassState Builtin) :
    Prop where
  given : first ≤ state.population.nextId
  sheets : ∀ event ∈ Forest.members state.context.sheets, event ∈ sources

/-- Between two states of a pass the sheets stay, and nothing happens to nodes below an id. -/
structure Advances (first : NodeId) (before after : PassState Builtin) : Prop where
  externals : after.context.externals = before.context.externals
  spares : Population.Spares first before.population after.population

theorem Advances.trans {before between after : PassState Builtin}
    (earlier : Advances first before between) (later : Advances first between after) :
    Advances first before after where
  externals := later.externals.trans earlier.externals
  spares := earlier.spares.trans later.spares

theorem WorksOn.advance (works : WorksOn sources first state)
    (advances : Advances first state after) : WorksOn sources first after where
  given := advances.spares.grows works.given
  sheets := by
    rw [PreprocessContext.sheets, advances.externals]
    exact works.sheets

/-- Asking an event only makes copies, of the events of a sheet. -/
theorem LinkVisit.advances {event : Event Builtin} {splice : Splice Builtin}
    {visited : PassState Builtin} (visit : LinkVisit event state splice visited) :
    Advances first state visited := by
  refine ⟨visit.externals_eq, ?_⟩
  cases visit with
  | plain _ => exact Population.Spares.refl _
  | unknown _ _ => exact Population.Spares.refl _
  | expanded _ _ _ =>
      rw [PassState.expand, Forest.cloneRemembering_eq_copy]
      exact Forest.spares_copy Event.itself first _ _
  | exhausted _ _ _ => exact Population.Spares.refl _

theorem LinkVisit.copies {event : Event Builtin} {splice : Splice Builtin}
    {visited : PassState Builtin} (visit : LinkVisit event state splice visited)
    (works : WorksOn sources first state) {nodes : Forest Builtin}
    (goes : splice.replacement? = some nodes) :
    ∀ copy ∈ Forest.members nodes, copy.CopiesOneOf sources first := by
  cases visit with
  | plain _ => cases goes
  | unknown _ _ =>
      cases goes
      exact List.forall_mem_nil _
  | expanded _ known _ =>
      cases goes
      intro copy isCopy
      rw [Forest.cloneRemembering_eq_copy] at isCopy
      apply (Forest.copiesOneOf_copy _ _ copy isCopy).mono _ works.given
      exact fun source isSource =>
        works.sheets source (PreprocessContext.mem_sheets known isSource)
  | exhausted _ _ _ =>
      cases goes
      exact List.forall_mem_nil _

/-- Discarding a node ends it and all below it. -/
theorem population_discard (node : Node Builtin) (behavior : Builtin)
    (state : PassState Builtin) :
    (Pass.visitor.discard (node.setBehavior behavior) state).2.population =
      state.population.retireAll node.ids := by
  have ids : (node.setBehavior behavior).ids = node.ids := by
    rw [← Node.map_fst_bonds, Node.bonds_setBehavior, Node.map_fst_bonds]
  rw [← ids, ← Node.retire_eq]
  rfl

/-- Destroying a copy leaves the sources as they are. -/
theorem advances_discard {node : Node Builtin}
    (copies : ∀ event ∈ node.members, event.CopiesOneOf sources first) (behavior : Builtin) :
    Advances first state (Pass.visitor.discard (node.setBehavior behavior) state).2 := by
  refine ⟨rfl, ?_⟩
  rw [population_discard]
  apply Population.Spares.retireAll
  intro id isOne
  rw [Node.ids_eq_map_members] at isOne
  rcases List.mem_map.mp isOne with ⟨event, isMember, rfl⟩
  exact (copies event isMember).1

/-- A pass over copies ends with copies. All the while it asks copies, and nothing has happened to
the events they were made from. -/
theorem Traverses.copies
    (traverses : Traverses Pass.visitor forest cursor state calls result after)
    (works : WorksOn sources first state)
    (copies : ∀ event ∈ Forest.members forest, event.CopiesOneOf sources first) :
    (∀ event ∈ Forest.members result, event.CopiesOneOf sources first) ∧
      Advances first state after ∧
      ∀ call ∈ calls, call.event.CopiesOneOf sources first ∧ Advances first state call.state := by
  have here (state : PassState Builtin) : Advances first state state :=
    ⟨rfl, Population.Spares.refl _⟩
  induction traverses with
  | finished _ => exact ⟨copies, here _, List.forall_mem_nil _⟩
  | skip _ _ _ induction => exact induction works copies
  | @stay forest subEvents result inserted cursor node behavior splice state visited below after
      inner outer found enabled visit stays inside onward insideInduction onwardInduction =>
      rcases linkVisit_of_visit visit with ⟨rfl, ends⟩
      rcases ends.eq_keep stays with ⟨rfl, rfl⟩
      have ofNode : ∀ event ∈ node.members, event.CopiesOneOf sources first :=
        fun event isMember => copies event (Forest.mem_members_of_found found isMember)
      rw [Node.members_eq, List.forall_mem_cons] at ofNode
      have asked : Advances first state visited := ends.advances
      rcases insideInduction (works.advance asked) ofNode.2 with
        ⟨innerCopies, passed, innerCalls⟩
      have passedBelow := asked.trans passed
      have spliced : ∀ event ∈ Forest.members (forest.splice cursor
          [{ node.setBehavior node.event.behavior with subEvents }]),
          event.CopiesOneOf sources first := by
        intro event isMember
        rcases Forest.mem_members_splice isMember with wasMember | isPassed
        · exact copies event wasMember
        · rw [Forest.members_singleton, Node.members_eq] at isPassed
          rcases List.mem_cons.mp isPassed with rfl | isBelow
          · exact ofNode.1
          · exact innerCopies event isBelow
      rcases onwardInduction (works.advance passedBelow) spliced with
        ⟨outerCopies, arrived, outerCalls⟩
      refine ⟨outerCopies, passedBelow.trans arrived, ?_⟩
      rw [List.forall_mem_cons, List.forall_mem_append]
      refine ⟨⟨ofNode.1, here state⟩, ?_, ?_⟩
      · exact fun call isCall =>
          ⟨(innerCalls call isCall).1, asked.trans (innerCalls call isCall).2⟩
      · exact fun call isCall =>
          ⟨(outerCalls call isCall).1, passedBelow.trans (outerCalls call isCall).2⟩
  | @go forest result nodes cursor node behavior splice state visited after calls found enabled
      visit goes onward induction =>
      rcases linkVisit_of_visit visit with ⟨rfl, ends⟩
      have ofNode : ∀ event ∈ node.members, event.CopiesOneOf sources first :=
        fun event isMember => copies event (Forest.mem_members_of_found found isMember)
      have discarded : Advances first visited _ := advances_discard ofNode node.event.behavior
      have passed := (ends.advances).trans discarded
      have spliced : ∀ event ∈ Forest.members (forest.splice cursor nodes),
          event.CopiesOneOf sources first := fun event isMember =>
        (Forest.mem_members_splice isMember).elim (copies event) (ends.copies works goes event)
      rcases induction (works.advance passed) spliced with ⟨endCopies, arrived, laterCalls⟩
      refine ⟨endCopies, passed.trans arrived, ?_⟩
      rw [Node.members_eq, List.forall_mem_cons] at ofNode
      rw [List.forall_mem_cons]
      exact ⟨⟨ofNode.1, here state⟩, fun call isCall =>
        ⟨(laterCalls call isCall).1, passed.trans (laterCalls call isCall).2⟩⟩

end Preprocess

end EventSheet
