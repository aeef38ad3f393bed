import EventSheet.Proofs.Ownership
import EventSheet.Proofs.Snapshot.Payload
import EventSheet.Proofs.Snapshot.Restore
namespace EventSheet

/-! # Restoring what was taken

The records of a forest, taken in one after the other, rebuild the forest: once those of a
sub-forest are taken in and its levels are closed, the sub-forest has been handed to the node
that was innermost before. -/

/-! ## Making a forest anew -/

section

variable {β : Type}

mutual
/-- A tree of new nodes with the events of another, made in pre-order. -/
def Node.renew : Node β → StateM Population (Node β)
  | ⟨event, subEvents⟩ => do
      let node ← Node.create event.behavior
      let renewed ← Forest.renew subEvents
      return { (node.setDisabled event.disabled).setFolded event.folded with subEvents := renewed }

def Forest.renew : List (Node β) → StateM Population (List (Node β))
  | [] => return []
  | head :: tail => do
      let head ← head.renew
      let tail ← Forest.renew tail
      return head :: tail
end

mutual
/-- Trees of one shape with the same events; identities and lineage play no part. -/
def Node.Alike : Node β → Node β → Prop
  | ⟨left, leftSubEvents⟩, ⟨right, rightSubEvents⟩ =>
      left.behavior = right.behavior ∧ left.disabled = right.disabled ∧
        left.folded = right.folded ∧ Forest.Alike leftSubEvents rightSubEvents

def Forest.Alike : List (Node β) → List (Node β) → Prop
  | [], [] => True
  | left :: leftRest, right :: rightRest => left.Alike right ∧ Forest.Alike leftRest rightRest
  | _, _ => False
end

mutual
theorem Node.alike_renew : ∀ (node : Node β) (population : Population),
    node.Alike (node.renew population).1
  | ⟨_, subEvents⟩, _ => ⟨rfl, rfl, rfl, Forest.alike_renew subEvents _⟩

theorem Forest.alike_renew : ∀ (forest : List (Node β)) (population : Population),
    Forest.Alike forest (Forest.renew forest population).1
  | [], _ => trivial
  | head :: tail, population => ⟨head.alike_renew population, Forest.alike_renew tail _⟩
end

mutual
theorem Node.alike_copy (link : Event β → Option NodeId) : ∀ (node : Node β)
    (population : Population), node.Alike (node.copy link population).1
  | ⟨_, subEvents⟩, _ => ⟨rfl, rfl, rfl, Forest.alike_copy link subEvents _⟩

theorem Forest.alike_copy (link : Event β → Option NodeId) : ∀ (forest : List (Node β))
    (population : Population), Forest.Alike forest (Forest.copy link forest population).1
  | [], _ => trivial
  | head :: tail, population =>
      ⟨head.alike_copy link population, Forest.alike_copy link tail _⟩
end

theorem Forest.alike_clone (forest : Forest β) (population : Population) :
    Forest.Alike forest (Forest.clone forest population).1 := by
  rw [Forest.clone_eq_copy]
  exact Forest.alike_copy _ forest population

/-! The new nodes get the next ids in pre-order and start with the sample of a new node. -/

mutual
theorem Node.enrolled_renew : ∀ (node : Node β) (population : Population),
    (node.renew population).1.ids = List.range' population.nextId node.count ∧
      (node.renew population).2.identities.toList =
        population.identities.toList ++ List.replicate node.count ({} : Identity)
  | ⟨event, subEvents⟩, population => by
      rcases Forest.enrolled_renew subEvents (Population.enroll {} population).2 with
        ⟨innerIds, innerIdentities⟩
      constructor
      · rw [Population.nextId_enroll] at innerIds
        rw [Node.count, List.range'_succ, ← innerIds]
        rfl
      · rw [Node.count, List.replicate_succ, List.append_cons]
        refine innerIdentities.trans ?_
        rw [Population.enroll, Array.toList_push]

theorem Forest.enrolled_renew : ∀ (forest : List (Node β)) (population : Population),
    Forest.ids (Forest.renew forest population).1 =
        List.range' population.nextId (Forest.count forest) ∧
      (Forest.renew forest population).2.identities.toList =
        population.identities.toList ++ List.replicate (Forest.count forest) ({} : Identity)
  | [], population => ⟨rfl, (List.append_nil _).symm⟩
  | head :: tail, population => by
      rcases head.enrolled_renew population with ⟨headIds, headIdentities⟩
      rcases Forest.enrolled_renew tail (head.renew population).2 with ⟨tailIds, tailIdentities⟩
      have nextId : (head.renew population).2.nextId = population.nextId + head.count := by
        rw [Population.nextId, ← Array.length_toList, headIdentities, List.length_append,
          List.length_replicate, Array.length_toList, Population.nextId]
        exact Nat.add_right_comm _ _ _
      constructor
      · rw [nextId] at tailIds
        rw [Forest.count, ← List.range'_append_1, ← headIds, ← tailIds]
        rfl
      · rw [Forest.count, List.replicate_add, ← List.append_assoc, ← headIdentities,
          ← tailIdentities]
        rfl
end

mutual
theorem Node.remembered_renew : ∀ (node : Node β) (population : Population) (depth : Nat),
    ∀ visit ∈ (node.renew population).1.walk depth, visit.1.event.remembered = none
  | ⟨event, subEvents⟩, population, depth => by
      intro visit isVisit
      rcases List.mem_cons.mp isVisit with same | inner
      · rw [same]
        rfl
      · exact Forest.remembered_renew subEvents _ _ visit inner

theorem Forest.remembered_renew : ∀ (forest : List (Node β)) (population : Population)
    (depth : Nat), ∀ visit ∈ Forest.walkFrom depth (Forest.renew forest population).1,
      visit.1.event.remembered = none
  | [], _, _ => fun _ isVisit => nomatch isVisit
  | head :: tail, population, depth => by
      intro visit isVisit
      rcases List.mem_append.mp isVisit with isHead | isTail
      · exact head.remembered_renew population depth visit isHead
      · exact Forest.remembered_renew tail _ depth visit isTail
end

mutual
theorem Node.id_mem_ids : ∀ (node : Node β) (depth : Nat),
    ∀ visit ∈ node.walk depth, visit.1.id ∈ node.ids
  | ⟨event, subEvents⟩, depth => by
      intro visit isVisit
      rcases List.mem_cons.mp isVisit with same | inner
      · rw [same]
        exact List.mem_cons_self
      · exact List.mem_cons_of_mem _ (Forest.id_mem_ids subEvents _ visit inner)

theorem Forest.id_mem_ids : ∀ (forest : List (Node β)) (depth : Nat),
    ∀ visit ∈ Forest.walkFrom depth forest, visit.1.id ∈ Forest.ids forest
  | [], _ => fun _ isVisit => nomatch isVisit
  | head :: tail, depth => by
      intro visit isVisit
      rcases List.mem_append.mp isVisit with isHead | isTail
      · exact List.mem_append_left _ (head.id_mem_ids depth visit isHead)
      · exact List.mem_append_right _ (Forest.id_mem_ids tail depth visit isTail)
end

theorem Forest.identity_renew (forest : Forest β) (population : Population) :
    ∀ visit ∈ Forest.walk (Forest.renew forest population).1,
      (Forest.renew forest population).2.identity? visit.1.id = some {} := by
  intro visit isVisit
  have isId := Forest.id_mem_ids _ 0 visit isVisit
  rcases Forest.enrolled_renew forest population with ⟨ids, identities⟩
  rw [ids, List.mem_range'_1, Population.nextId] at isId
  rcases Nat.exists_eq_add_of_le' isId.1 with ⟨offset, isSum⟩
  have inside : offset < Forest.count forest := by omega
  have behind : offset + population.identities.size - population.identities.toList.length =
      offset := by
    rw [Array.length_toList, Nat.add_sub_cancel]
  rw [isSum, ← Nat.add_assoc, Population.identity?, ← Array.getElem?_toList, identities,
    List.getElem?_append_right (by simp), behind, List.getElem?_replicate, if_pos inside]

namespace Rebuilding

/-! ## Handing nodes over -/

/-- Hand finished nodes to the innermost open node, or to the roots. -/
def append (nodes : Forest β) (rebuilding : Rebuilding β) : Rebuilding β :=
  match rebuilding.openNodes with
  | [] => { roots := rebuilding.roots ++ nodes, openNodes := [] }
  | parent :: outer =>
      { rebuilding with
        openNodes := { parent with subEvents := parent.subEvents ++ nodes } :: outer }

theorem append_nil (rebuilding : Rebuilding β) : rebuilding.append [] = rebuilding := by
  rcases rebuilding with ⟨roots, openNodes⟩
  cases openNodes with
  | nil => simp only [append, List.append_nil]
  | cons parent outer =>
      rcases parent with ⟨event, subEvents⟩
      simp only [append, List.append_nil]

theorem append_append (left right : Forest β) (rebuilding : Rebuilding β) :
    (rebuilding.append left).append right = rebuilding.append (left ++ right) := by
  rcases rebuilding with ⟨roots, openNodes⟩
  cases openNodes with
  | nil => simp only [append, List.append_assoc]
  | cons parent outer => simp only [append, List.append_assoc]

/-- Open one more node. -/
def enter (node : Node β) (rebuilding : Rebuilding β) : Rebuilding β :=
  { rebuilding with openNodes := node :: rebuilding.openNodes }

theorem closeInnermost_enter (node : Node β) (rebuilding : Rebuilding β) :
    (rebuilding.enter node).closeInnermost = rebuilding.append [node] := by
  rcases rebuilding with ⟨roots, openNodes⟩
  cases openNodes with
  | nil => rfl
  | cons parent outer => rfl

theorem append_enter (node : Node β) (nodes : Forest β) (rebuilding : Rebuilding β) :
    (rebuilding.enter node).append nodes =
      rebuilding.enter { node with subEvents := node.subEvents ++ nodes } := rfl

/-! ## Closing in two steps -/

theorem closeTo_of_length_le {rebuilding : Rebuilding β} {depth : Nat}
    (within : rebuilding.openNodes.length ≤ depth) : rebuilding.closeTo depth = rebuilding := by
  rw [closeTo, Nat.sub_eq_zero_of_le within]
  rfl

theorem length_closeTo_of_le {depth : Nat} {rebuilding : Rebuilding β}
    (within : depth ≤ rebuilding.openNodes.length) :
    (rebuilding.closeTo depth).openNodes.length = depth := by
  rw [length_closeTo, Nat.min_eq_left within]

theorem closeTo_succ_enter {rebuilding : Rebuilding β} {depth : Nat}
    (length : rebuilding.openNodes.length = depth) (node : Node β) :
    (rebuilding.enter node).closeTo (depth + 1) = rebuilding.enter node :=
  closeTo_of_length_le (Nat.le_of_eq (congrArg Nat.succ length))

theorem closeTo_enter {rebuilding : Rebuilding β} {depth : Nat}
    (length : rebuilding.openNodes.length = depth) (node : Node β) :
    (rebuilding.enter node).closeTo depth = rebuilding.append [node] := by
  rw [closeTo, enter, List.length_cons, length, Nat.add_sub_cancel_left, ← closeInnermost_enter]
  rfl

theorem repeat_repeat {α : Type} (change : α → α) (first second : Nat) (start : α) :
    Nat.repeat change second (Nat.repeat change first start) =
      Nat.repeat change (first + second) start := by
  induction second with
  | zero => rfl
  | succ second induction => rw [Nat.repeat, induction, Nat.add_succ, Nat.repeat]

theorem closeTo_closeTo {inner outer : Nat} (deeper : outer ≤ inner) (rebuilding : Rebuilding β) :
    (rebuilding.closeTo inner).closeTo outer = rebuilding.closeTo outer := by
  rw [closeTo, length_closeTo, closeTo, closeTo, repeat_repeat]
  congr 1
  omega

end Rebuilding

end

/-! ## Taking in the records of a forest -/

section

variable {β : Type} [EventKind β]

def Node.records (depth : Nat) (node : Node β) : List EventRecord :=
  (node.walk depth).map fun visit => visit.1.record visit.2

def Forest.records (depth : Nat) (forest : Forest β) : List EventRecord :=
  (Forest.walkFrom depth forest).map fun visit => visit.1.record visit.2

theorem Node.records_mk (depth : Nat) (event : Event β) (subEvents : List (Node β)) :
    Node.records depth ⟨event, subEvents⟩ =
      Node.record ⟨event, subEvents⟩ depth :: Forest.records (depth + 1) subEvents := by
  rw [records, walk, List.map_cons, Forest.records]

theorem Forest.records_cons (depth : Nat) (head : Node β) (tail : List (Node β)) :
    Forest.records depth (head :: tail) = head.records depth ++ Forest.records depth tail := by
  rw [records, walkFrom, List.map_append, Node.records, records]

/-- The registry builds every behavior from its own payload. -/
def Registry.Rebuilds (registry : Registry β) : Prop :=
  ∀ behavior, registry.create (EventKind.kind behavior) (EventKind.payload behavior) = .ok behavior

namespace Rebuilding

variable {registry : Registry β}

/-- Whoever nodes of a depth are handed to owns sub-events. -/
def Accommodates (depth : Nat) (rebuilding : Rebuilding β) : Prop :=
  ∀ parent, (rebuilding.closeTo depth).openNodes.head? = some parent → parent.ownsSubEvents = true

/-- Taking in the records leads to where, once the levels from the depth on are closed, the
nodes have been handed over. -/
def HandsOver (registry : Registry β) (records : List EventRecord) (depth : Nat)
    (rebuilding : Rebuilding β) (population : Population) (nodes : Forest β × Population) : Prop :=
  ∃ after : Rebuilding β, depth ≤ after.openNodes.length ∧
    after.closeTo depth = (rebuilding.closeTo depth).append nodes.1 ∧
    ∀ position rest, addAll registry position (records ++ rest) rebuilding population =
      addAll registry (position + records.length) rest after nodes.2

theorem Accommodates.append {depth : Nat} {rebuilding after : Rebuilding β} {nodes : Forest β}
    (accommodates : rebuilding.Accommodates depth)
    (appended : after.closeTo depth = (rebuilding.closeTo depth).append nodes) :
    after.Accommodates depth := by
  rw [Accommodates] at accommodates ⊢
  rw [appended]
  generalize rebuilding.closeTo depth = closed at accommodates
  rcases closed with ⟨roots, openNodes⟩
  cases openNodes with
  | nil => exact accommodates
  | cons parent outer =>
      intro other isOther
      cases isOther
      exact accommodates parent rfl

theorem add_record (rebuilds : registry.Rebuilds) {depth : Nat} {rebuilding : Rebuilding β}
    (within : depth ≤ rebuilding.openNodes.length) (accommodates : rebuilding.Accommodates depth)
    (position : Nat) (node : Node β) (population : Population) :
    rebuilding.add registry position (node.record depth) population =
      (.ok ((rebuilding.closeTo depth).enter
        (fresh (node.record depth) node.behavior population.nextId)),
        (Population.enroll {} population).2) := by
  have atDepth : (node.record depth).depth = depth := rfl
  have passes : (rebuilding.closeTo depth).openNodes.head?.filter
      (fun parent => !parent.ownsSubEvents) = none := by
    rw [Option.filter_eq_none_iff]
    intro parent isParent
    simp [accommodates parent isParent]
  have created : registry.create (node.record depth).kind (node.record depth).payload =
      .ok node.behavior := rebuilds node.behavior
  simp only [add, atDepth, Nat.not_lt_of_le within, ↓reduceIte, passes, created]
  rfl

theorem handsOver_nil {depth : Nat} {rebuilding : Rebuilding β}
    (within : depth ≤ rebuilding.openNodes.length) (population : Population) :
    HandsOver registry [] depth rebuilding population ([], population) :=
  ⟨rebuilding, within, (append_nil _).symm, fun _ _ => rfl⟩

/-- Nodes are handed over one group after the other. -/
theorem HandsOver.append {records others : List EventRecord} {depth : Nat}
    {rebuilding : Rebuilding β} {population between : Population} {nodes : Forest β}
    {more : Forest β × Population}
    (first : HandsOver registry records depth rebuilding population (nodes, between))
    (second : ∀ after : Rebuilding β, depth ≤ after.openNodes.length →
      after.closeTo depth = (rebuilding.closeTo depth).append nodes →
      HandsOver registry others depth after between more) :
    HandsOver registry (records ++ others) depth rebuilding population
      (nodes ++ more.1, more.2) := by
  rcases first with ⟨middle, middleWithin, middleClosed, middleTaken⟩
  rcases second middle middleWithin middleClosed with ⟨after, within, closed, taken⟩
  refine ⟨after, within, ?_, ?_⟩
  · rw [closed, middleClosed, append_append]
  · intro position rest
    rw [List.append_assoc, middleTaken, taken, List.length_append, Nat.add_assoc]

/-- A node is open while its sub-events are handed to it. -/
theorem handsOver_node (rebuilds : registry.Rebuilds) {depth : Nat} {rebuilding : Rebuilding β}
    (within : depth ≤ rebuilding.openNodes.length) (accommodates : rebuilding.Accommodates depth)
    (node : Node β) (population : Population) {records : List EventRecord}
    {subEvents : Forest β × Population}
    (inner : HandsOver registry records (depth + 1)
      ((rebuilding.closeTo depth).enter
        (fresh (node.record depth) node.behavior population.nextId))
      (Population.enroll {} population).2 subEvents) :
    HandsOver registry (node.record depth :: records) depth rebuilding population
      ([{ fresh (node.record depth) node.behavior population.nextId with
          subEvents := subEvents.1 }], subEvents.2) := by
  rcases inner with ⟨after, innerWithin, closed, taken⟩
  have length := length_closeTo_of_le within
  refine ⟨after, Nat.le_of_succ_le innerWithin, ?_, ?_⟩
  · rw [← closeTo_closeTo (Nat.le_succ depth) after, closed, closeTo_succ_enter length,
      append_enter, closeTo_enter length]
    rfl
  · intro position rest
    have added := add_record rebuilds within accommodates position node population
    rw [List.cons_append, addAll_of_ok (congrArg Prod.fst added), added, taken, List.length_cons,
      Nat.add_assoc, Nat.add_comm 1]

mutual
theorem handsOver_tree (rebuilds : registry.Rebuilds) : ∀ (node : Node β), node.Owned →
    ∀ (depth : Nat) (rebuilding : Rebuilding β), depth ≤ rebuilding.openNodes.length →
      rebuilding.Accommodates depth → ∀ population,
      HandsOver registry (node.records depth) depth rebuilding population
        ([(node.renew population).1], (node.renew population).2)
  | ⟨event, subEvents⟩, owned, depth, rebuilding, within, accommodates, population => by
      rw [Node.records_mk]
      apply handsOver_node rebuilds within accommodates
      have length := length_closeTo_of_le within
      apply handsOver_forest rebuilds subEvents owned.2
      · exact Nat.le_of_eq (congrArg Nat.succ length.symm)
      · cases owns : EventKind.ownsSubEvents event.behavior with
        | false => exact .inl (owned.1 owns)
        | true =>
            right
            rw [Accommodates, closeTo_succ_enter length]
            intro parent isParent
            cases isParent
            exact owns

theorem handsOver_forest (rebuilds : registry.Rebuilds) : ∀ (forest : List (Node β)),
    Forest.Owned forest → ∀ (depth : Nat) (rebuilding : Rebuilding β),
      depth ≤ rebuilding.openNodes.length → forest = [] ∨ rebuilding.Accommodates depth →
      ∀ population, HandsOver registry (Forest.records depth forest) depth rebuilding population
        (Forest.renew forest population)
  | [], _, depth, rebuilding, within, _, population => handsOver_nil within population
  | head :: tail, owned, depth, rebuilding, within, accommodates, population => by
      have accommodated := accommodates.resolve_left (List.cons_ne_nil head tail)
      rw [Forest.records_cons]
      apply (handsOver_tree rebuilds head owned.1 depth rebuilding within accommodated
        population).append
      intro after afterWithin appended
      exact handsOver_forest rebuilds tail owned.2 depth after afterWithin
        (.inr (accommodated.append appended)) _
end

end Rebuilding

/-- The forest is made anew, node by node in pre-order. -/
theorem Forest.restore_snapshot_eq {registry : Registry β} (rebuilds : registry.Rebuilds)
    {forest : Forest β} (owned : Forest.Owned forest) (population : Population) :
    (Forest.snapshot forest).restore registry population =
      (.ok (Forest.renew forest population).1, (Forest.renew forest population).2) := by
  have accommodates : Rebuilding.Accommodates 0 ({} : Rebuilding β) := by
    intro parent isParent
    cases isParent
  rcases Rebuilding.handsOver_forest rebuilds forest owned 0 {} (Nat.zero_le _)
    (.inr accommodates) population with ⟨after, _, closed, taken⟩
  have supported : ¬ formatVersion < (Forest.snapshot forest).version := Nat.lt_irrefl 1
  have records : (Forest.snapshot forest).events = Forest.records 0 forest ++ [] := by
    rw [Forest.snapshot_eq_walk, List.append_nil]
    rfl
  rw [Snapshot.restore, if_neg supported, records, taken, Rebuilding.addAll, closed]
  rfl

/-! ## Snapshots of alike forests -/

mutual
theorem Node.Alike.records_eq : ∀ {left right : Node β}, left.Alike right → ∀ depth,
    left.records depth = right.records depth
  | ⟨left, leftSubEvents⟩, ⟨right, rightSubEvents⟩, alike, depth => by
      rcases alike with ⟨behavior, disabled, folded, inner⟩
      rw [Node.records_mk, Node.records_mk, Forest.Alike.records_eq inner, Node.record,
        Node.record]
      simp only [Node.kind, Node.payload, Node.behavior, behavior, disabled, folded]

theorem Forest.Alike.records_eq : ∀ {left right : List (Node β)}, Forest.Alike left right →
    ∀ depth, Forest.records depth left = Forest.records depth right
  | [], [], _, _ => rfl
  | _ :: _, _ :: _, alike, depth => by
      rw [Forest.records_cons, Forest.records_cons, Node.Alike.records_eq alike.1,
        Forest.Alike.records_eq alike.2]
end

theorem Forest.Alike.snapshot_eq {left right : Forest β} (alike : Forest.Alike left right) :
    Forest.snapshot left = Forest.snapshot right := by
  rw [Forest.snapshot_eq_walk, Forest.snapshot_eq_walk]
  exact congrArg Snapshot.current (alike.records_eq 0)

/-- The next record, if there is one, is that of a node less deep. -/
def EventRecord.EndsBefore (depth : Nat) (rest : List EventRecord) : Prop :=
  ∀ record ∈ rest.head?, record.depth < depth

theorem Forest.endsBefore_records (depth : Nat) (forest : List (Node β))
    {rest : List EventRecord} (ends : EventRecord.EndsBefore depth rest) :
    EventRecord.EndsBefore (depth + 1) (Forest.records depth forest ++ rest) := by
  cases forest with
  | nil => exact fun record isNext => Nat.lt_succ_of_lt (ends record isNext)
  | cons head tail =>
      rcases head with ⟨event, subEvents⟩
      rw [Forest.records_cons, Node.records_mk]
      intro record isNext
      cases isNext
      exact Nat.lt_succ_self depth

/-- Records name the kind and the payload of a behavior, which the registry builds from them. -/
theorem Registry.Rebuilds.behavior_eq {registry : Registry β} (rebuilds : registry.Rebuilds)
    {left right : Node β} {depth : Nat} (same : left.record depth = right.record depth) :
    left.behavior = right.behavior := by
  have kind : left.kind = right.kind := congrArg EventRecord.kind same
  have payload : left.payload = right.payload := congrArg EventRecord.payload same
  have built := rebuilds left.behavior
  rw [show EventKind.kind left.behavior = EventKind.kind right.behavior from kind,
    show EventKind.payload left.behavior = EventKind.payload right.behavior from payload,
    rebuilds right.behavior] at built
  exact (Except.ok.inj built).symm

/-- The records of a forest, up to the next that is less deep, tell all but who the nodes are. -/
theorem Forest.alike_of_records {registry : Registry β} (rebuilds : registry.Rebuilds) :
    ∀ (left right : List (Node β)) (depth : Nat) {leftRest rightRest : List EventRecord},
      EventRecord.EndsBefore depth leftRest → EventRecord.EndsBefore depth rightRest →
      Forest.records depth left ++ leftRest = Forest.records depth right ++ rightRest →
      Forest.Alike left right ∧ leftRest = rightRest
  | [], [], _, _, _, _, _, same => ⟨trivial, same⟩
  | [], ⟨event, subEvents⟩ :: tail, depth, leftRest, _, ends, _, same => by
      rw [Forest.records_cons, Node.records_mk] at same
      have next := ends (Node.record ⟨event, subEvents⟩ depth)
        (by rw [show leftRest = _ from same]; exact rfl)
      exact absurd next (Nat.lt_irrefl depth)
  | ⟨event, subEvents⟩ :: tail, [], depth, _, rightRest, _, ends, same => by
      rw [Forest.records_cons, Node.records_mk] at same
      have next := ends (Node.record ⟨event, subEvents⟩ depth)
        (by rw [show rightRest = _ from same.symm]; exact rfl)
      exact absurd next (Nat.lt_irrefl depth)
  | ⟨event, subEvents⟩ :: tail, ⟨other, otherSubEvents⟩ :: otherTail, depth, _, _, ends,
      otherEnds, same => by
      rw [Forest.records_cons, Forest.records_cons, Node.records_mk, Node.records_mk,
        List.cons_append, List.cons_append, List.cons_append, List.cons_append,
        List.append_assoc, List.append_assoc, List.cons.injEq] at same
      rcases same with ⟨first, behind⟩
      rcases Forest.alike_of_records rebuilds subEvents otherSubEvents (depth + 1)
          (Forest.endsBefore_records depth tail ends)
          (Forest.endsBefore_records depth otherTail otherEnds) behind with
        ⟨inside, onward⟩
      rcases Forest.alike_of_records rebuilds tail otherTail depth ends otherEnds onward with
        ⟨siblings, rest⟩
      refine ⟨⟨⟨rebuilds.behavior_eq first, ?_, ?_, inside⟩, siblings⟩, rest⟩
      · exact congrArg EventRecord.disabled first
      · exact congrArg EventRecord.folded first

/-- Forests with one snapshot are alike. -/
theorem Forest.alike_of_snapshot_eq {registry : Registry β} (rebuilds : registry.Rebuilds)
    {left right : Forest β} (same : Forest.snapshot left = Forest.snapshot right) :
    Forest.Alike left right := by
  rw [Forest.snapshot_eq_walk, Forest.snapshot_eq_walk] at same
  have records : Forest.records 0 left ++ [] = Forest.records 0 right ++ [] :=
    congrArg (· ++ []) (congrArg Snapshot.events same)
  have ends : EventRecord.EndsBefore 0 [] := fun _ isNext => nomatch isNext
  exact (Forest.alike_of_records rebuilds left right 0 ends ends records).1

/-- Restoring the snapshot of a forest succeeds with new nodes, one for each node of the forest:
the restored forest has the same shape, events and flags, so the same snapshot. Its nodes have the
sample of a new node and remember no other. -/
theorem Forest.restore_undoes_snapshot (forest : Forest Kind.Builtin) (owned : Forest.Owned forest)
    (population : Population) :
    ∃ restored after,
      (Forest.snapshot forest).restore (Registry.builtin id) population = (.ok restored, after) ∧
      Forest.Alike forest restored ∧
      (∀ visit ∈ Forest.walk restored,
        visit.1.event.remembered = none ∧ after.identity? visit.1.id = some {}) ∧
      Forest.snapshot restored = Forest.snapshot forest := by
  have alike := Forest.alike_renew forest population
  refine ⟨_, _, Forest.restore_snapshot_eq Registry.builtin_create owned population, alike, ?_,
    alike.snapshot_eq.symm⟩
  intro visit isVisit
  exact ⟨Forest.remembered_renew forest population 0 visit isVisit,
    Forest.identity_renew forest population visit isVisit⟩

end

open Kind in
/-- A folded loop over a disabled event and a branch of two arms, then a comment and a link. -/
def nightWatch : Forest Builtin :=
  let rounds : Repetition :=
    { count := ⟨"rounds"⟩, conditions := [{ name := "dark", inverted := true }] }
  let walk : Standard :=
    { actions := [{ name := "walk", subInstructions := [{ name := "step" }] }] }
  let gate : Branch :=
    { arms :=
        [{ conditions := [{ name := "near", parameters := [⟨"gate"⟩] }] },
         { actions := [{ name := "ring" }] }]
      otherwise := [{ name := "wait" }] }
  [{ event := { id := 7, behavior := .repetition rounds, folded := true }
     subEvents :=
       [{ event := { id := 8, behavior := .standard walk, disabled := true } },
        { event := { id := 9, behavior := .branch gate, remembered := some 2 } }] },
   { event := { id := 10, behavior := .comment { text := "at dawn" } } },
   { event := { id := 11, behavior := .link { target := "relief" } } }]

theorem owned_nightWatch : Forest.Owned nightWatch := by
  simp [nightWatch, Forest.Owned, Node.Owned, EventKind.ownsSubEvents, Kind.Builtin.ownsSubEvents]

theorem nightWatch_restored : Forest.Owned nightWatch ∧
    ∃ restored after,
      (Forest.snapshot nightWatch).restore (Registry.builtin id) {} = (.ok restored, after) ∧
      Forest.Alike nightWatch restored ∧
      (∀ visit ∈ Forest.walk restored,
        visit.1.event.remembered = none ∧ after.identity? visit.1.id = some {}) ∧
      Forest.snapshot restored = Forest.snapshot nightWatch :=
  ⟨owned_nightWatch, Forest.restore_undoes_snapshot nightWatch owned_nightWatch {}⟩

end EventSheet
