import EventSheet.Kind.Builtin
import EventSheet.Proofs.Ancestors
import EventSheet.Proofs.Rendering.Measures
import Mathlib.Algebra.Ring.Nat
import Mathlib.Data.List.Nodup
namespace EventSheet

/-! # The height of what is visible

Forests are measured in an order that is not the one they are displayed in, partly from entries
that are there. What comes out is the sum over the nodes without a folded ancestor, and fresh
entries for these and no others. -/

variable {β : Type}

/-! ## Visible nodes -/

/-- No event around the node is folded. The node itself may be. -/
def Lineage.isVisible (lineage : Lineage β) : Bool :=
  lineage.ancestors.all fun event => !event.folded

def Forest.visible (forest : Forest β) : List (Node β) :=
  ((Forest.lineages [] forest).filter Lineage.isVisible).map Lineage.node

mutual
theorem Node.visible_lineages : ∀ (node : Node β) (ancestors : List (Event β)),
    ((node.lineages ancestors).filter Lineage.isVisible).map Lineage.node =
      if ancestors.all fun event => !event.folded then node.displayed else []
  | ⟨event, subEvents⟩, ancestors => by
      rw [Node.lineages, List.filter_cons, Lineage.isVisible, Node.displayed]
      have below := Forest.visible_lineages subEvents (event :: ancestors)
      rw [List.all_cons] at below
      cases shown : ancestors.all fun event => !event.folded with
      | false =>
          rw [shown, Bool.and_false] at below
          exact below
      | true =>
          rw [shown, Bool.and_true] at below
          cases folded : event.folded <;> simpa [folded] using below

theorem Forest.visible_lineages : ∀ (forest : List (Node β)) (ancestors : List (Event β)),
    ((Forest.lineages ancestors forest).filter Lineage.isVisible).map Lineage.node =
      if ancestors.all fun event => !event.folded then Forest.displayed forest else []
  | [], ancestors => by
      rw [Forest.lineages, Forest.displayed, ite_self]
      rfl
  | head :: tail, ancestors => by
      rw [Forest.lineages, List.filter_append, List.map_append, head.visible_lineages,
        Forest.visible_lineages tail, Forest.displayed]
      split <;> rfl
end

/-- What is displayed are the nodes without a folded ancestor. -/
theorem Forest.displayed_eq_visible (forest : Forest β) :
    Forest.displayed forest = Forest.visible forest := by
  rw [visible, visible_lineages]
  rfl

namespace Rendering.Cache

variable [EventKind β] {cache : Cache}

/-! ## Sums -/

/-- A total that fits is the sum of the heights. -/
theorem toNat_totalHeight (width : UInt32) : ∀ (nodes : List (Node β)) {total : UInt32},
    total.toNat + (nodes.map fun node => (node.renderedHeight width).toNat).sum < UInt32.size →
      (totalHeight width nodes total).toNat =
        total.toNat + (nodes.map fun node => (node.renderedHeight width).toNat).sum
  | [], _, _ => rfl
  | head :: tail, total, fits => by
      rw [List.map_cons, List.sum_cons, ← Nat.add_assoc] at fits ⊢
      have first : (total + head.renderedHeight width).toNat =
          total.toNat + (head.renderedHeight width).toNat := by
        rw [UInt32.toNat_add]
        exact Nat.mod_eq_of_lt (Nat.lt_of_le_of_lt (Nat.le_add_right _ _) fits)
      rw [← first] at fits ⊢
      exact toNat_totalHeight width tail fits

/-! ## Entries -/

omit [EventKind β] in
theorem Measured.find?_of_not_mem {ids : List NodeId} {after : Cache}
    (measured : Measured ids cache after) {id : NodeId} (other : id ∉ ids) :
    after.find? id = cache.find? id :=
  (measured id).resolve_right fun ⟨isOne, _⟩ => other isOne

/-- Siblings of distinct ids all get an entry of their height. -/
theorem find?_siblingsHeight (width : UInt32) : ∀ (nodes : List (Node β)) (total : UInt32)
    {cache : Cache}, (nodes.map Node.id).Nodup → (∀ node ∈ nodes, cache.Tells node.event) →
      ∀ node ∈ nodes, (siblingsHeight width nodes total cache).2.find? node.id =
        some { width, height := node.renderedHeight width }
  | head :: tail, total, cache, distinct, tells, node, isNode => by
      rw [List.map_cons, List.nodup_cons] at distinct
      rw [List.forall_mem_cons] at tells
      have others : ∀ other ∈ tail, other.event.id ≠ head.id := by
        intro other isOther same
        exact distinct.1 (same ▸ List.mem_map_of_mem isOther)
      have told : ∀ other ∈ tail, (height head width cache).2.Tells other.event := by
        intro other isOther
        exact (tells.2 other isOther).of_height
          (fun same => absurd same (others other isOther)) width
      have after : (siblingsHeight width (head :: tail) total cache).2 =
          (siblingsHeight width tail (total + (height head width cache).1)
            (height head width cache).2).2 := rfl
      rw [after]
      rcases List.mem_cons.mp isNode with rfl | isOther
      · rw [(measured_siblingsHeight width tail _ _).find?_of_not_mem distinct.1, find?_height,
          if_pos rfl, tells.1.height_eq]
      · exact find?_siblingsHeight width tail _ distinct.2 told node isOther

theorem find?_forestHeight (width : UInt32) {forest : Forest β}
    (distinct : ((Forest.displayed forest).map Node.id).Nodup)
    (tells : ∀ node ∈ Forest.displayed forest, cache.Tells node.event) :
    ∀ node ∈ Forest.displayed forest, (forestHeight width forest cache).2.find? node.id =
      some { width, height := node.renderedHeight width } := by
  rcases pendingHeight_eq width [forest] 0 with ⟨order, same, measures⟩
  rw [List.flatMap_singleton] at same
  rw [forestHeight, measures 0]
  intro node isNode
  apply find?_siblingsHeight width order 0
  · exact (same.map Node.id).nodup_iff.mpr distinct
  · exact fun other isOther => tells other (same.mem_iff.mp isOther)
  · exact same.mem_iff.mpr isNode

/-- Measuring a forest sums up the heights of the nodes without a folded ancestor, as long as the
sum fits, and leaves fresh entries for them and all other entries as they were. -/
theorem forestHeight_sums_visible {forest : Forest β} (width : UInt32)
    (distinct : (Forest.ids forest).Nodup)
    (tells : ∀ node ∈ Forest.visible forest, cache.Tells node.event)
    (fits : ((Forest.visible forest).map fun node => (node.renderedHeight width).toNat).sum <
      UInt32.size) :
    (forestHeight width forest cache).1.toNat =
        ((Forest.visible forest).map fun node => (node.renderedHeight width).toNat).sum ∧
      (∀ node ∈ Forest.visible forest, (forestHeight width forest cache).2.find? node.id =
        some { width, height := node.renderedHeight width }) ∧
      ∀ id, id ∉ (Forest.visible forest).map Node.id →
        (forestHeight width forest cache).2.find? id = cache.find? id := by
  rw [← Forest.displayed_eq_visible] at *
  have distinctOnes : ((Forest.displayed forest).map Node.id).Nodup := by
    rw [← Forest.map_id_subtrees] at distinct
    exact distinct.sublist ((Forest.displayed_sublist forest).map Node.id)
  refine ⟨?_, find?_forestHeight width distinctOnes tells,
    fun id => (measured_forestHeight width forest cache).find?_of_not_mem⟩
  have alike : ∀ left ∈ Forest.displayed forest, ∀ right ∈ Forest.displayed forest,
      left.id = right.id → left.behavior = right.behavior :=
    fun left isLeft right isRight same =>
      congrArg Node.behavior (List.inj_on_of_nodup_map distinctOnes isLeft isRight same)
  have start : (0 : UInt32).toNat +
      ((Forest.displayed forest).map fun node => (node.renderedHeight width).toNat).sum <
        UInt32.size := by
    rwa [UInt32.toNat_zero, Nat.zero_add]
  rw [forestHeight_eq width tells alike, toNat_totalHeight width _ start, UInt32.toNat_zero,
    Nat.zero_add]

def remark : Node Kind.Builtin where
  event := { id := 4, behavior := .comment { text := "one\ntwo" } }

def folder : Node Kind.Builtin where
  event := { id := 1, behavior := .standard {}, folded := true }
  subEvents := [{ event := { id := 2, behavior := .comment { text := "hidden" } } }]

def opened : Node Kind.Builtin where
  event := { id := 3, behavior := .standard {} }
  subEvents := [remark]

/-- The entry of what the folder hides is wrong, that of the open event is stale, and that of its
remark is of another width. -/
def drafts : Cache :=
  ((({} : Cache).insert 2 { width := 140, height := 7 }).insert 3
    { width := 140, height := 7, needsUpdate := true }).insert 4 { width := 70, height := 48 }

/-- The folder, the open event and its remark are summed up, and the entry of what is hidden stays
as wrong as it was. -/
theorem forestHeight_sums_visible_drafts :
    (Forest.ids [folder, opened]).Nodup ∧
      (∀ node ∈ Forest.visible [folder, opened], drafts.Tells node.event) ∧
      (forestHeight 140 [folder, opened] drafts).1.toNat = 108 ∧
      (forestHeight 140 [folder, opened] drafts).2.find? remark.id =
        some { width := 140, height := 48 } ∧
      (forestHeight 140 [folder, opened] drafts).2.find? 2 =
        some { width := 140, height := 7 } := by
  have distinct : (Forest.ids [folder, opened]).Nodup := by decide
  have listed : Forest.visible [folder, opened] = [folder, opened, remark] := rfl
  have tells : ∀ node ∈ Forest.visible [folder, opened], drafts.Tells node.event := by
    intro node isNode width height fresh
    rw [fresh?_eq_some_iff] at fresh
    rw [listed, List.mem_cons, List.mem_cons, List.mem_singleton] at isNode
    rcases isNode with rfl | rfl | rfl
    · have missing : drafts.find? folder.id = none := by decide
      exact nomatch missing.symm.trans fresh
    · have stale : drafts.find? opened.id =
          some { width := 140, height := 7, needsUpdate := true } := by decide
      exact nomatch Option.some.inj (stale.symm.trans fresh)
    · have narrow : drafts.find? remark.id = some { width := 70, height := 48 } := by decide
      cases Option.some.inj (narrow.symm.trans fresh)
      decide
  have sum : ((Forest.visible [folder, opened]).map
      fun node => (node.renderedHeight 140).toNat).sum = 108 := by decide
  have isVisible : remark ∈ Forest.visible [folder, opened] :=
    listed ▸ List.mem_cons_of_mem _ (List.mem_cons_of_mem _ List.mem_cons_self)
  have isHidden : 2 ∉ (Forest.visible [folder, opened]).map Node.id := by decide
  have hidden : drafts.find? 2 = some { width := 140, height := 7 } := by decide
  rcases forestHeight_sums_visible 140 distinct tells (sum ▸ by decide) with
    ⟨total, entries, others⟩
  exact ⟨distinct, tells, total.trans sum, entries remark isVisible,
    (others 2 isHidden).trans hidden⟩

end Rendering.Cache

end EventSheet
