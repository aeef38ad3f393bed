import EventSheet.Proofs.Lineage.Subtrees
import EventSheet.Rendering.Cache
namespace EventSheet

/-! # Measuring

Every step of the cache changes the entry of one node only. Measuring leaves a fresh entry behind,
and the height of a forest is the sum over what is displayed of it, in whatever order the nodes are
measured. -/

variable {β : Type}

mutual
def Node.displayed : Node β → List (Node β)
  | ⟨event, subEvents⟩ =>
      ⟨event, subEvents⟩ :: if event.folded then [] else Forest.displayed subEvents

/-- The nodes of a forest that are displayed: what is below a folded node is hidden. -/
def Forest.displayed : List (Node β) → List (Node β)
  | [] => []
  | head :: tail => head.displayed ++ Forest.displayed tail
end

theorem Node.displayed_eq (node : Node β) :
    node.displayed =
      node :: if node.event.folded then [] else Forest.displayed node.subEvents := by
  cases node
  rw [displayed]

mutual
theorem Node.displayed_sublist : ∀ node : Node β, node.displayed.Sublist node.subtrees
  | ⟨event, subEvents⟩ => by
      rw [Node.displayed, Node.subtrees]
      apply List.Sublist.cons_cons
      split
      · exact List.nil_sublist _
      · exact Forest.displayed_sublist subEvents

/-- What is displayed are trees of the forest, in the order they are in. -/
theorem Forest.displayed_sublist : ∀ forest : List (Node β),
    (Forest.displayed forest).Sublist (Forest.subtrees forest)
  | [] => List.Sublist.refl _
  | head :: tail => by
      rw [Forest.displayed, Forest.subtrees]
      exact head.displayed_sublist.append (Forest.displayed_sublist tail)
end

namespace Rendering

/-- What is displayed are the nodes on top and those displayed below them. -/
theorem displayed_perm (forest : Forest β) :
    (forest ++ (displayedBelow forest).flatMap Forest.displayed).Perm
      (Forest.displayed forest) := by
  induction forest with
  | nil => exact List.Perm.refl _
  | cons head tail induction =>
      rw [Forest.displayed, Node.displayed_eq, List.cons_append, List.cons_append]
      apply List.Perm.cons
      cases folded : head.event.folded with
      | true =>
          rw [displayedBelow, List.filter_cons_of_neg (by simp [folded]), ← displayedBelow,
            if_pos rfl]
          exact induction
      | false =>
          rw [displayedBelow, List.filter_cons_of_pos (by simp [folded]), List.map_cons,
            ← displayedBelow, List.flatMap_cons, if_neg Bool.false_ne_true]
          exact (List.perm_append_comm_assoc _ _ _).trans (induction.append_left _)

namespace Cache

/-! ## Entries -/

section

variable (cache : Cache) (id other : NodeId)

theorem find?_insert (entry : CachedHeight) :
    (cache.insert id entry).find? other = if other = id then some entry else cache.find? other := by
  rw [find?, insert, Std.TreeMap.getElem?_insert, find?]
  by_cases same : other = id
  · simp [same]
  · simp [same, Ne.symm same]

theorem find?_forget :
    (cache.forget id).find? other = if other = id then none else cache.find? other := by
  rw [find?, forget, Std.TreeMap.getElem?_erase, find?]
  by_cases same : other = id
  · simp [same]
  · simp [same, Ne.symm same]

theorem find?_invalidate :
    (cache.invalidate id).find? other =
      if other = id then (cache.find? id).map fun entry => { entry with needsUpdate := true }
      else cache.find? other := by
  rw [invalidate]
  cases found : cache.find? id with
  | none =>
      by_cases same : other = id
      · rw [if_pos same, same, found, Option.map_none]
      · rw [if_neg same]
  | some entry => rw [find?_insert, Option.map_some]

/-- Exactly the entries of nodes of the forest are kept. -/
theorem find?_retainLive (forest : Forest β) :
    (cache.retainLive forest).find? id =
      if id ∈ Forest.ids forest then cache.find? id else none := by
  rw [find?, retainLive, Forest.map_id_visits, Std.TreeMap.getElem?_filter',
    Std.TreeSet.contains_ofList, find?]
  by_cases isLive : id ∈ Forest.ids forest
  · cases cache.entries[id]? <;> simp [isLive]
  · cases cache.entries[id]? <;> simp [isLive]

/-- A fresh height is that of an entry of the same width that is not stale. -/
theorem fresh?_eq_some_iff {width height : UInt32} :
    cache.fresh? id width = some height ↔ cache.find? id = some { width, height } := by
  rw [fresh?]
  cases found : cache.find? id with
  | none => simp
  | some entry =>
      rcases entry with ⟨measured, tall, needsUpdate⟩
      cases needsUpdate <;> simp

end

/-! ## Single nodes -/

variable [EventKind β] {cache : Cache} {width : UInt32}

/-- The node measured gets an entry of the height told, and that is all that changes. -/
theorem find?_height (node : Node β) (width : UInt32) (cache : Cache) (other : NodeId) :
    (height node width cache).2.find? other =
      if other = node.id then some { width, height := (height node width cache).1 }
      else cache.find? other := by
  rw [height]
  cases fresh : cache.fresh? node.id width with
  | none => exact find?_insert _ _ _ _
  | some known =>
      by_cases same : other = node.id
      · rw [if_pos same, same]
        exact (fresh?_eq_some_iff _ _).mp fresh
      · rw [if_neg same]

/-- The cache has no fresh height of an event other than its height. -/
def Tells (cache : Cache) (event : Event β) : Prop :=
  ∀ width height, cache.fresh? event.id width = some height →
    height = EventKind.renderedHeight event.behavior width

theorem Tells.height_eq {node : Node β} (tells : cache.Tells node.event) (width : UInt32) :
    (height node width cache).1 = node.renderedHeight width := by
  rw [height]
  cases fresh : cache.fresh? node.id width with
  | none => rfl
  | some known => exact tells width known fresh

/-- What is told of an event goes on to be so when a node is measured, unless that is another one
of the same id. -/
theorem Tells.of_height {node : Node β} {event : Event β} (tells : cache.Tells event)
    (same : event.id = node.id → event.behavior = node.behavior) (width : UInt32) :
    (height node width cache).2.Tells event := by
  intro asked tall fresh
  rw [fresh?_eq_some_iff, find?_height] at fresh
  split at fresh
  · next isNode =>
      cases fresh
      have told : cache.Tells node.event := by
        change ∀ width height, cache.fresh? node.id width = some height →
          height = EventKind.renderedHeight node.behavior width
        rw [← isNode, ← same isNode]
        exact tells
      rw [told.height_eq, Node.renderedHeight, same isNode]
  · exact tells asked tall ((fresh?_eq_some_iff _ _).mpr fresh)

/-- From one cache to the next, nodes of these ids were measured, and all other entries are as
they were. -/
def Measured (ids : List NodeId) (before after : Cache) : Prop :=
  ∀ id, after.find? id = before.find? id ∨
    id ∈ ids ∧ ∃ width height, after.find? id = some { width, height }

omit [EventKind β] in
theorem needsUpdate_of_entry {id : NodeId} {entry : CachedHeight}
    (found : cache.find? id = some entry) : cache.needsUpdate id = entry.needsUpdate := by
  rw [needsUpdate, found]

omit [EventKind β] in
/-- Measuring makes nothing stale. -/
theorem Measured.needsUpdate {ids : List NodeId} {after : Cache}
    (measured : Measured ids cache after) {id : NodeId}
    (fresh : cache.needsUpdate id = false) : after.needsUpdate id = false := by
  rcases measured id with same | ⟨_, width, height, new⟩
  · rwa [Cache.needsUpdate, same]
  · exact needsUpdate_of_entry new

theorem measured_height (node : Node β) (width : UInt32) (cache : Cache) :
    Measured [node.id] cache (height node width cache).2 := by
  intro id
  rw [find?_height]
  by_cases same : id = node.id
  · exact .inr ⟨List.mem_singleton.mpr same, width, _, if_pos same⟩
  · exact .inl (if_neg same)

/-! ## Forests -/

/-- The sum of heights to a total. -/
def totalHeight (width : UInt32) (nodes : List (Node β)) (total : UInt32) : UInt32 :=
  nodes.foldl (fun total node => total + node.renderedHeight width) total

theorem siblingsHeight_append (width : UInt32) (front behind : List (Node β)) (total : UInt32) :
    siblingsHeight width (front ++ behind) total =
      siblingsHeight width front total >>= siblingsHeight width behind := by
  induction front generalizing total with
  | nil => rfl
  | cons head tail induction =>
      funext cache
      rw [List.cons_append, siblingsHeight, siblingsHeight]
      exact congrFun (induction _) _

/-- Pending forests are measured as one list of nodes, in some order. -/
theorem pendingHeight_eq (width : UInt32) (pending : List (Forest β)) (total : UInt32) :
    ∃ order : List (Node β), order.Perm (pending.flatMap Forest.displayed) ∧
      ∀ total, pendingHeight width pending total = siblingsHeight width order total := by
  induction pending, total using pendingHeight.induct with
  | case1 total =>
      refine ⟨[], List.Perm.refl _, ?_⟩
      intro total
      rw [pendingHeight, siblingsHeight]
  | case2 forest pending total induction =>
      rcases induction total with ⟨order, same, measures⟩
      refine ⟨forest ++ order, ?_, ?_⟩
      · have below := (displayedBelow forest).reverse_perm.flatMap_right Forest.displayed
        rw [List.flatMap_append] at same
        rw [List.flatMap_cons]
        refine List.Perm.trans ?_ ((displayed_perm forest).append_right _)
        rw [List.append_assoc]
        exact (same.trans (below.append_right _)).append_left _
      · intro total
        rw [pendingHeight, siblingsHeight_append]
        exact congrArg _ (funext measures)

theorem Tells.of_siblingsHeight {event : Event β} (width : UInt32) : ∀ (nodes : List (Node β))
    (total : UInt32) {cache : Cache}, cache.Tells event →
      (∀ node ∈ nodes, event.id = node.id → event.behavior = node.behavior) →
        (siblingsHeight width nodes total cache).2.Tells event
  | [], _, _, tells, _ => tells
  | head :: tail, total, cache, tells, same => by
      rw [List.forall_mem_cons] at same
      exact (tells.of_height same.1 width).of_siblingsHeight width tail
        (total + (height head width cache).1) same.2

/-- Nodes that the cache tells the heights of are summed up. -/
theorem siblingsHeight_eq (width : UInt32) : ∀ (nodes : List (Node β)) (total : UInt32)
    (cache : Cache), (∀ node ∈ nodes, cache.Tells node.event) →
      (∀ left ∈ nodes, ∀ right ∈ nodes, left.id = right.id → left.behavior = right.behavior) →
      (siblingsHeight width nodes total cache).1 = totalHeight width nodes total
  | [], _, _, _, _ => rfl
  | head :: tail, total, cache, told, alike => by
      have runs : siblingsHeight width (head :: tail) total cache =
          siblingsHeight width tail (total + (height head width cache).1)
            (height head width cache).2 := rfl
      rw [runs, siblingsHeight_eq, (told head List.mem_cons_self).height_eq]
      · rfl
      · intro node isNode
        apply (told node (List.mem_cons_of_mem _ isNode)).of_height
        exact alike node (List.mem_cons_of_mem _ isNode) head List.mem_cons_self
      · intro left isLeft right isRight
        exact alike left (List.mem_cons_of_mem _ isLeft) right (List.mem_cons_of_mem _ isRight)

theorem measured_siblingsHeight (width : UInt32) : ∀ (nodes : List (Node β)) (total : UInt32)
    (cache : Cache), Measured (nodes.map Node.id) cache (siblingsHeight width nodes total cache).2
  | [], _, _ => fun _ => .inl rfl
  | head :: tail, total, cache => by
      intro id
      rcases measured_siblingsHeight width tail (total + (height head width cache).1)
        (height head width cache).2 id with same | ⟨isTail, new⟩
      · rcases measured_height head width cache id with kept | ⟨isHead, new⟩
        · exact .inl (same.trans kept)
        · refine .inr ⟨List.mem_cons.mpr (.inl (List.mem_singleton.mp isHead)), ?_⟩
          rcases new with ⟨wide, tall, found⟩
          exact ⟨wide, tall, same.trans found⟩
      · exact .inr ⟨List.mem_cons_of_mem _ isTail, new⟩

theorem measured_forestHeight (width : UInt32) (forest : Forest β) (cache : Cache) :
    Measured ((Forest.displayed forest).map Node.id) cache (forestHeight width forest cache).2 := by
  rcases pendingHeight_eq width [forest] 0 with ⟨order, same, measures⟩
  rw [List.flatMap_singleton] at same
  rw [forestHeight, measures 0]
  intro id
  rcases measured_siblingsHeight width order 0 cache id with kept | ⟨isOne, new⟩
  · exact .inl kept
  · exact .inr ⟨(same.map Node.id).mem_iff.mp isOne, new⟩

theorem totalHeight_perm {width : UInt32} {nodes others : List (Node β)} (same : nodes.Perm others)
    (total : UInt32) : totalHeight width nodes total = totalHeight width others total := by
  apply same.foldl_eq'
  intro left _ right _ total
  rw [UInt32.add_assoc, UInt32.add_assoc, UInt32.add_comm (left.renderedHeight width)]

/-- The height of a forest is the sum of the heights of the nodes displayed. -/
theorem forestHeight_eq (width : UInt32) {forest : Forest β} {cache : Cache}
    (told : ∀ node ∈ Forest.displayed forest, cache.Tells node.event)
    (alike : ∀ left ∈ Forest.displayed forest, ∀ right ∈ Forest.displayed forest,
      left.id = right.id → left.behavior = right.behavior) :
    (forestHeight width forest cache).1 = totalHeight width (Forest.displayed forest) 0 := by
  rcases pendingHeight_eq width [forest] 0 with ⟨order, same, measures⟩
  rw [List.flatMap_singleton] at same
  rw [forestHeight, measures 0, ← totalHeight_perm same]
  apply siblingsHeight_eq
  · exact fun node isNode => told node (same.mem_iff.mp isNode)
  · intro left isLeft right isRight
    exact alike left (same.mem_iff.mp isLeft) right (same.mem_iff.mp isRight)

theorem Tells.of_forestHeight {event : Event β} (width : UInt32) {forest : Forest β}
    {cache : Cache} (tells : cache.Tells event)
    (alike : ∀ node ∈ Forest.displayed forest, event.id = node.id →
      event.behavior = node.behavior) :
    (forestHeight width forest cache).2.Tells event := by
  rcases pendingHeight_eq width [forest] 0 with ⟨order, same, measures⟩
  rw [List.flatMap_singleton] at same
  rw [forestHeight, measures 0]
  exact tells.of_siblingsHeight width order 0 fun node isNode => alike node (same.mem_iff.mp isNode)

end Cache

end Rendering

end EventSheet
