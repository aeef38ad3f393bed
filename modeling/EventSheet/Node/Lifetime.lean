import EventSheet.Node
namespace EventSheet

/-! Making, copying and destroying nodes. Making a node enrolls it in the
population; copies are enrolled in pre-order, so the copies of one tree have
consecutive ids. Destroying a node retires it with its whole tree. Moving a node
from one forest to another changes nothing here. -/

/-- A node of a new behavior, without sub-events. -/
def Node.create {β : Type} (behavior : β) : StateM Population (Node β) := do
  let id ← Population.enroll {}
  return { event := { id, behavior } }

/-- A copy of an event under a new id. It takes over the sample of its source,
and `link` says which node it remembers. -/
def Event.copy {β : Type} (link : Event β → Option NodeId) (event : Event β) :
    StateM Population (Event β) := do
  let population ← get
  let id ← Population.enroll (population.sample event.id)
  return { event with id, remembered := link event }

mutual
def Node.copy {β : Type} (link : Event β → Option NodeId) :
    Node β → StateM Population (Node β)
  | ⟨event, subEvents⟩ => do
      let event ← event.copy link
      let subEvents ← Forest.copy link subEvents
      return ⟨event, subEvents⟩

def Forest.copy {β : Type} (link : Event β → Option NodeId) :
    List (Node β) → StateM Population (List (Node β))
  | [] => return []
  | head :: tail => do
      let head ← head.copy link
      let tail ← Forest.copy link tail
      return head :: tail
end

/-- An instrumented copy remembers its source. -/
def Event.itself {β : Type} (event : Event β) : Option NodeId := some event.id

/-! A plain copy is made with a stack of frames, one for every list of siblings that
is being copied, so that it takes no deep recursion to copy a deep tree. The copies
of the sub-events of a node are handed to its copy, the latest one in the frame
below, once all of them were made. -/

/-- Siblings that are being copied. -/
structure CopyFrame (β : Type) where
  /-- Those that are still to be copied. -/
  ahead : List (Node β)
  /-- The copies made so far, the latest first. -/
  copies : List (Node β) := []

/-- What is left to do for a stack of frames: their nodes, and closing them. -/
def CopyFrame.work {β : Type} : List (CopyFrame β) → Nat
  | [] => 0
  | frame :: enclosing => 2 * Forest.count frame.ahead + 1 + CopyFrame.work enclosing

/-- Copy what is ahead in a frame and in those around it, innermost first. A plain
copy remembers what its source remembers. -/
def Forest.cloneFrames {β : Type} :
    CopyFrame β → List (CopyFrame β) → StateM Population (List (Node β))
  | ⟨⟨event, subEvents⟩ :: rest, copies⟩, enclosing => do
      let event ← event.copy Event.remembered
      let frame : CopyFrame β := { ahead := rest, copies := ⟨event, []⟩ :: copies }
      if subEvents.isEmpty then Forest.cloneFrames frame enclosing
      else Forest.cloneFrames { ahead := subEvents } (frame :: enclosing)
  | ⟨[], copies⟩, ⟨ahead, owner :: others⟩ :: outer =>
      Forest.cloneFrames
        { ahead, copies := { owner with subEvents := copies.reverse } :: others } outer
  | ⟨[], copies⟩, _ => return copies.reverse
termination_by frame enclosing => CopyFrame.work (frame :: enclosing)
decreasing_by
  all_goals simp [CopyFrame.work, Forest.count, Node.count]; try omega

def Forest.clone {β : Type} (forest : Forest β) : StateM Population (Forest β) :=
  Forest.cloneFrames { ahead := forest } []

def Node.clone {β : Type} (node : Node β) : StateM Population (Node β) := do
  let event ← node.event.copy Event.remembered
  let subEvents ← Forest.clone node.subEvents
  return { event, subEvents }

/-- A copy whose top node remembers its source; the sub-events keep what their
sources remember. -/
def Node.cloneRemembering {β : Type} (node : Node β) :
    StateM Population (Node β) := do
  let copy ← node.clone
  return copy.mapEvent fun event => { event with remembered := some node.id }

/-! Copies are linked to the nodes they were copied from once all of them are there:
the siblings of one list together, then what is below them, the last sibling first.
Here too a stack of frames keeps track, and sub-events that are linked are handed to
the node that owns them, the first of the linked ones in the frame below. -/

/-- The copy, remembering its source. -/
def Node.remember {β : Type} (source copy : Node β) : Node β :=
  copy.mapEvent fun event => { event with remembered := some source.id }

/-- Siblings that remember their sources, while the nodes below them are linked. -/
structure LinkFrame (β : Type) where
  /-- Sources and copies that are still to be linked below, the last first. -/
  pending : List (Node β × Node β)
  /-- The copies behind those, linked with all their sub-events. -/
  linked : List (Node β) := []

namespace LinkFrame

/-- Link copies to the sources in the same positions. -/
def link {β : Type} (pending : List (Node β × Node β)) :
    (sources copies : List (Node β)) → LinkFrame β
  | source :: sources, copy :: copies =>
      link ((source, source.remember copy) :: pending) sources copies
  | _, copies => { pending, linked := copies }

/-- What is left to do for a stack of frames: the sources that are pending, with all
that is below them, and closing the frames. -/
def work {β : Type} : List (LinkFrame β) → Nat
  | [] => 0
  | frame :: enclosing => 2 * Forest.count (frame.pending.map Prod.fst) + 1 + work enclosing

theorem count_link_le {β : Type} : ∀ (sources copies : List (Node β))
    (pending : List (Node β × Node β)),
    Forest.count ((link pending sources copies).pending.map Prod.fst) ≤
      Forest.count sources + Forest.count (pending.map Prod.fst)
  | [], _, _ => Nat.le_add_left _ _
  | _ :: _, [], _ => Nat.le_add_left _ _
  | source :: sources, copy :: copies, pending => by
      have rest := count_link_le sources copies ((source, source.remember copy) :: pending)
      simp only [List.map_cons, Forest.count] at rest ⊢
      rw [link]
      omega

end LinkFrame

/-- Link what is pending in a frame and in those around it, innermost first. -/
def Forest.linkFrames {β : Type} : LinkFrame β → List (LinkFrame β) → List (Node β)
  | ⟨(source, copy) :: pending, linked⟩, enclosing =>
      Forest.linkFrames (.link [] source.subEvents copy.subEvents)
        (⟨pending, copy :: linked⟩ :: enclosing)
  | ⟨[], linked⟩, ⟨pending, owner :: others⟩ :: outer =>
      Forest.linkFrames ⟨pending, { owner with subEvents := linked } :: others⟩ outer
  | ⟨[], linked⟩, _ => linked
termination_by frame enclosing => LinkFrame.work (frame :: enclosing)
decreasing_by
  · rcases source with ⟨event, subEvents⟩
    have below := LinkFrame.count_link_le subEvents copy.subEvents []
    simp only [LinkFrame.work, List.map_cons, List.map_nil, Forest.count, Node.count] at below ⊢
    omega
  · simp [LinkFrame.work]

/-- A copy in which every node remembers the one it was copied from. -/
def Forest.cloneRemembering {β : Type} (forest : Forest β) :
    StateM Population (Forest β) := do
  let copies ← Forest.clone forest
  return Forest.linkFrames (.link [] forest copies) []

mutual
/-- The population without the nodes of a tree. -/
def Node.retire {β : Type} : Node β → Population → Population
  | ⟨event, subEvents⟩, population => Forest.retire subEvents (population.retire event.id)

def Forest.retire {β : Type} : List (Node β) → Population → Population
  | [], population => population
  | head :: tail, population => Forest.retire tail (head.retire population)
end

/-- Destroy every node of a forest. -/
def Forest.destroy {β : Type} (forest : Forest β) : StateM Population Unit :=
  modify (Forest.retire forest)

def Node.destroy {β : Type} (node : Node β) : StateM Population Unit :=
  modify node.retire

/-! ## What destroying retires -/

mutual
theorem Node.retire_eq {β : Type} : ∀ (node : Node β) (population : Population),
    node.retire population = population.retireAll node.ids
  | ⟨event, subEvents⟩, population => by
      rw [Node.retire, Forest.retire_eq subEvents, Node.ids, Population.retireAll_cons]

/-- Destroying a forest retires exactly its nodes. -/
theorem Forest.retire_eq {β : Type} : ∀ (forest : Forest β) (population : Population),
    Forest.retire forest population = population.retireAll (Forest.ids forest)
  | [], _ => by rw [Forest.retire, Forest.ids, Population.retireAll_nil]
  | head :: tail, population => by
      rw [Forest.retire, Forest.retire_eq tail, head.retire_eq, Forest.ids,
        Population.retireAll_append]
end

/-! ## What cloning makes -/

mutual
theorem Node.cloneFrames_cons {β : Type} : ∀ (node : Node β) (rest copies : List (Node β))
    (enclosing : List (CopyFrame β)) (population : Population),
    Forest.cloneFrames ⟨node :: rest, copies⟩ enclosing population =
      Forest.cloneFrames ⟨rest, (node.copy Event.remembered population).1 :: copies⟩ enclosing
        (node.copy Event.remembered population).2
  | ⟨event, subEvents⟩, rest, copies, enclosing, population => by
      rw [Forest.cloneFrames]
      change (if subEvents.isEmpty then _ else _ : StateM Population _)
        (event.copy Event.remembered population).2 = _
      cases subEvents with
      | nil => rfl
      | cons first others =>
          -- the sub-events are copied in a frame of their own, which is then closed
          rw [List.isEmpty_cons, if_neg Bool.false_ne_true, Forest.cloneFrames_eq,
            Forest.cloneFrames, List.append_nil, List.reverse_reverse]
          rfl

/-- Copying what is ahead puts its copies in front of those made before. -/
theorem Forest.cloneFrames_eq {β : Type} : ∀ (forest copies : List (Node β))
    (enclosing : List (CopyFrame β)) (population : Population),
    Forest.cloneFrames ⟨forest, copies⟩ enclosing population =
      Forest.cloneFrames ⟨[], (Forest.copy Event.remembered forest population).1.reverse ++ copies⟩
        enclosing (Forest.copy Event.remembered forest population).2
  | [], copies, enclosing, population => rfl
  | head :: tail, copies, enclosing, population => by
      have copied : (Forest.copy Event.remembered (head :: tail) population).1 =
          (head.copy Event.remembered population).1 ::
            (Forest.copy Event.remembered tail (head.copy Event.remembered population).2).1 := rfl
      rw [head.cloneFrames_cons, Forest.cloneFrames_eq tail, copied, List.reverse_cons,
        List.append_assoc, List.singleton_append]
      rfl
end

/-- The copy made on a stack is the copy made by recursion. -/
theorem Forest.clone_eq_copy {β : Type} (forest : Forest β) :
    Forest.clone forest = Forest.copy Event.remembered forest := by
  funext population
  rw [Forest.clone, Forest.cloneFrames_eq, Forest.cloneFrames.eq_def, List.append_nil]
  simp only [List.reverse_reverse]
  rfl

theorem Node.clone_eq_copy {β : Type} (node : Node β) :
    node.clone = node.copy Event.remembered := by
  rcases node with ⟨event, subEvents⟩
  rw [Node.clone, Forest.clone_eq_copy, Node.copy]

/-! ## What linking makes -/

mutual
theorem Node.population_copy {β : Type} (link other : Event β → Option NodeId) :
    ∀ (node : Node β) (population : Population),
      (node.copy link population).2 = (node.copy other population).2
  | ⟨event, subEvents⟩, population =>
      Forest.population_copy link other subEvents (event.copy link population).2

/-- What the copies remember makes no difference to the population. -/
theorem Forest.population_copy {β : Type} (link other : Event β → Option NodeId) :
    ∀ (forest : List (Node β)) (population : Population),
      (Forest.copy link forest population).2 = (Forest.copy other forest population).2
  | [], _ => rfl
  | head :: tail, population => by
      change (Forest.copy link tail (head.copy link population).2).2 =
        (Forest.copy other tail (head.copy other population).2).2
      rw [head.population_copy link other, Forest.population_copy link other tail]
end

mutual
theorem Node.linkFrames_cons {β : Type} : ∀ (node : Node β) (population : Population)
    (pending : List (Node β × Node β)) (linked : List (Node β)) (enclosing : List (LinkFrame β)),
    Forest.linkFrames
        ⟨(node, node.remember (node.copy Event.remembered population).1) :: pending, linked⟩
        enclosing =
      Forest.linkFrames ⟨pending, (node.copy Event.itself population).1 :: linked⟩ enclosing
  | ⟨event, subEvents⟩, population, pending, linked, enclosing => by
      have copied : (Node.remember ⟨event, subEvents⟩
          (Node.copy Event.remembered ⟨event, subEvents⟩ population).1).subEvents =
          (Forest.copy Event.remembered subEvents (event.copy Event.remembered population).2).1 :=
        rfl
      -- the sub-events are linked in a frame of their own, which is then closed
      rw [Forest.linkFrames, copied, Forest.linkFrames_link, Forest.linkFrames]
      rfl

/-- Linking the plain copies of a forest makes copies that remember their sources. -/
theorem Forest.linkFrames_link {β : Type} : ∀ (forest : List (Node β)) (population : Population)
    (pending : List (Node β × Node β)) (enclosing : List (LinkFrame β)),
    Forest.linkFrames (.link pending forest (Forest.copy Event.remembered forest population).1)
        enclosing =
      Forest.linkFrames ⟨pending, (Forest.copy Event.itself forest population).1⟩ enclosing
  | [], _, _, _ => rfl
  | head :: tail, population, pending, enclosing => by
      change Forest.linkFrames (.link ((head, _) :: pending) tail
        (Forest.copy Event.remembered tail (head.copy Event.remembered population).2).1) _ = _
      rw [Forest.linkFrames_link tail, head.linkFrames_cons,
        head.population_copy Event.remembered Event.itself]
      rfl
end

/-- The copy made on stacks is the copy made by recursion. -/
theorem Forest.cloneRemembering_eq_copy {β : Type} (forest : Forest β) :
    Forest.cloneRemembering forest = Forest.copy Event.itself forest := by
  funext population
  have cloned := congrFun (Forest.clone_eq_copy forest) population
  have linked := Forest.linkFrames_link forest population [] []
  change (Forest.linkFrames (.link [] forest (Forest.clone forest population).1) [],
    (Forest.clone forest population).2) = _
  rw [cloned, linked, Forest.linkFrames,
    Forest.population_copy Event.remembered Event.itself]
  · rfl
  · exact fun _ _ _ _ impossible => nomatch impossible

theorem Forest.cloned_eq_copy {β : Type} (remembering : Bool) (forest : Forest β) :
    (if remembering then Forest.cloneRemembering forest else Forest.clone forest) =
      Forest.copy (if remembering then Event.itself else Event.remembered) forest := by
  cases remembering with
  | true => exact Forest.cloneRemembering_eq_copy forest
  | false => exact Forest.clone_eq_copy forest

end EventSheet
