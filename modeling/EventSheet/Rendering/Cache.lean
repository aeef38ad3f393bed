import EventSheet.Behavior
import EventSheet.Node.Walk
import Std.Data.TreeMap
import Std.Data.TreeSet
namespace EventSheet.Rendering

/-! The cache of rendered heights, owned by the editor and keyed by node id, so
that event nodes carry no rendering state. -/

structure CachedHeight where
  width : UInt32
  height : UInt32
  needsUpdate : Bool := false
deriving DecidableEq

structure Cache where
  entries : Std.TreeMap NodeId CachedHeight := {}

/-- The forests right below a forest that are displayed: the sub-events of a folded
event are hidden. -/
def displayedBelow {β : Type} (forest : Forest β) : List (Forest β) :=
  (forest.filter fun node => !node.event.folded).map Node.subEvents

theorem pendingWork_displayedBelow {β : Type} (forest : Forest β) :
    Forest.pendingWork (displayedBelow forest) ≤ Forest.count forest := by
  induction forest with
  | nil => exact Nat.le_refl _
  | cons head tail induction =>
      rcases head with ⟨event, subEvents⟩
      rw [Forest.count, Node.count]
      cases folded : event.folded with
      | true =>
          rw [displayedBelow, List.filter_cons_of_neg (by simp [folded]), ← displayedBelow]
          omega
      | false =>
          rw [displayedBelow, List.filter_cons_of_pos (by simp [folded]), List.map_cons,
            ← displayedBelow, Forest.pendingWork]
          exact Nat.add_le_add_left induction _

namespace Cache

def find? (cache : Cache) (id : NodeId) : Option CachedHeight := cache.entries[id]?

def insert (cache : Cache) (id : NodeId) (entry : CachedHeight) : Cache :=
  { entries := cache.entries.insert id entry }

/-- An entry that still tells the height at a width. -/
def fresh? (cache : Cache) (id : NodeId) (width : UInt32) : Option UInt32 :=
  match cache.find? id with
  | some entry =>
      if entry.width = width && !entry.needsUpdate then some entry.height else none
  | none => none

/-- The height of a node at a width, measured only when it is missing or
stale. -/
def height {β : Type} [EventKind β] (node : Node β) (width : UInt32) :
    StateM Cache UInt32 := fun cache =>
  match cache.fresh? node.id width with
  | some height => (height, cache)
  | none =>
      let height := node.renderedHeight width
      (height, cache.insert node.id { width, height })

/-- Mark the height of a node as stale. -/
def invalidate (cache : Cache) (id : NodeId) : Cache :=
  match cache.find? id with
  | some entry => cache.insert id { entry with needsUpdate := true }
  | none => cache

/-- A node without an entry needs one. -/
def needsUpdate (cache : Cache) (id : NodeId) : Bool :=
  match cache.find? id with
  | some entry => entry.needsUpdate
  | none => true

def forget (cache : Cache) (id : NodeId) : Cache :=
  { entries := cache.entries.erase id }

/-- Keep only the entries of nodes of a forest. -/
def retainLive {β : Type} (cache : Cache) (forest : Forest β) : Cache :=
  let live := Std.TreeSet.ofList ((Forest.visits forest).map fun visit => visit.1.id)
  { entries := cache.entries.filter fun id _ => live.contains id }

/-- Add the heights of siblings to a total. -/
def siblingsHeight {β : Type} [EventKind β] (width : UInt32) :
    List (Node β) → UInt32 → StateM Cache UInt32
  | [], total => return total
  | head :: tail, total => do siblingsHeight width tail (total + (← height head width))

/-- Add the heights of pending forests to a total, with all that is displayed below
them. What is below the last sibling of a forest comes next. -/
def pendingHeight {β : Type} [EventKind β] (width : UInt32) :
    List (Forest β) → UInt32 → StateM Cache UInt32
  | [], total => return total
  | forest :: pending, total => do
      let total ← siblingsHeight width forest total
      pendingHeight width ((displayedBelow forest).reverse ++ pending) total
termination_by pending => Forest.pendingWork pending
decreasing_by
  have inside := pendingWork_displayedBelow forest
  rw [Forest.pendingWork_append, Forest.pendingWork_reverse, Forest.pendingWork]
  omega

/-- The total height of a forest as displayed. -/
def forestHeight {β : Type} [EventKind β] (width : UInt32) (forest : Forest β) :
    StateM Cache UInt32 :=
  pendingHeight width [forest] 0

end Cache

end EventSheet.Rendering
