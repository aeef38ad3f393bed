import EventSheet.Proofs.Snapshot.Restore
namespace EventSheet

/-! # Ownership of sub-events

No node has sub-events when its kind owns none. Copying and restoring build no other forests. -/

section

variable {β : Type} [EventKind β]

mutual
/-- No node of the tree has sub-events it does not own. -/
def Node.Owned : Node β → Prop
  | ⟨event, subEvents⟩ =>
      (EventKind.ownsSubEvents event.behavior = false → subEvents = []) ∧ Forest.Owned subEvents

def Forest.Owned : List (Node β) → Prop
  | [] => True
  | head :: tail => head.Owned ∧ Forest.Owned tail
end

theorem Node.owned_iff (node : Node β) :
    node.Owned ↔ (node.ownsSubEvents = false → node.subEvents = []) ∧
      Forest.Owned node.subEvents := by
  cases node
  rw [Owned]
  rfl

theorem Forest.owned_iff_forall {forest : Forest β} :
    Forest.Owned forest ↔ ∀ node ∈ forest, node.Owned := by
  induction forest with
  | nil => simp [Owned]
  | cons head tail induction => rw [Owned, induction, List.forall_mem_cons]

theorem Forest.Owned.append {left right : Forest β} (leftOwned : Forest.Owned left)
    (rightOwned : Forest.Owned right) : Forest.Owned (left ++ right) := by
  rw [owned_iff_forall] at leftOwned rightOwned ⊢
  intro node isNode
  rcases List.mem_append.mp isNode with isLeft | isRight
  · exact leftOwned node isLeft
  · exact rightOwned node isRight

mutual
theorem Node.Owned.copy (link : Event β → Option NodeId) : ∀ {node : Node β},
    node.Owned → ∀ population, (node.copy link population).1.Owned
  | ⟨event, subEvents⟩, owned, population => by
      refine ⟨?_, Forest.Owned.copy link owned.2 _⟩
      intro childless
      rw [owned.1 childless]
      rfl

/-- A copy is owned like its source. -/
theorem Forest.Owned.copy (link : Event β → Option NodeId) : ∀ {forest : List (Node β)},
    Forest.Owned forest → ∀ population, Forest.Owned (Forest.copy link forest population).1
  | [], _, _ => trivial
  | _ :: _, owned, _ =>
      ⟨Node.Owned.copy link owned.1 _, Forest.Owned.copy link owned.2 _⟩
end

/-! ## Restored forests -/

namespace Rebuilding

/-- Nodes have sub-events they own, and those that others are nested in own sub-events. -/
structure Owned (rebuilding : Rebuilding β) : Prop where
  roots : Forest.Owned rebuilding.roots
  openNodes : Forest.Owned rebuilding.openNodes
  enclosing : ∀ parent ∈ rebuilding.openNodes.tail, parent.ownsSubEvents = true

theorem Owned.closeInnermost {rebuilding : Rebuilding β} (owned : rebuilding.Owned) :
    rebuilding.closeInnermost.Owned := by
  rcases rebuilding with ⟨roots, openNodes⟩
  rcases owned with ⟨rootsOwned, openOwned, enclosing⟩
  cases openNodes with
  | nil => exact ⟨rootsOwned, openOwned, enclosing⟩
  | cons node outer =>
      cases outer with
      | nil => exact ⟨rootsOwned.append ⟨openOwned.1, trivial⟩, trivial, enclosing⟩
      | cons parent outer =>
          rcases openOwned with ⟨nodeOwned, parentOwned, outerOwned⟩
          have owns : parent.ownsSubEvents = true := enclosing parent List.mem_cons_self
          rw [Node.owned_iff] at parentOwned
          refine ⟨rootsOwned, ⟨?_, outerOwned⟩, ?_⟩
          · refine ⟨?_, parentOwned.2.append ⟨nodeOwned, trivial⟩⟩
            intro childless
            exact nomatch owns.symm.trans childless
          · intro other isOther
            exact enclosing other (List.mem_cons_of_mem _ isOther)

theorem Owned.closeTo {rebuilding : Rebuilding β} (owned : rebuilding.Owned) (depth : Nat) :
    (rebuilding.closeTo depth).Owned := by
  apply closeTo_preserves Rebuilding.Owned _ depth owned
  intro closed closedOwned
  exact closedOwned.closeInnermost

/-- A new node is only put below one that owns sub-events. -/
theorem Owned.add {registry : Registry β} {rebuilding next : Rebuilding β}
    (owned : rebuilding.Owned) {position : Nat} {record : EventRecord} {population : Population}
    (taken : (rebuilding.add registry position record population).1 = .ok next) :
    next.Owned := by
  have closed := owned.closeTo record.depth
  by_cases tooDeep : rebuilding.openNodes.length < record.depth
  · simp only [Rebuilding.add, tooDeep, ↓reduceIte] at taken
    cases taken
  · simp only [Rebuilding.add, tooDeep, ↓reduceIte] at taken
    generalize rebuilding.closeTo record.depth = innermost at taken closed
    cases passes : innermost.openNodes.head?.filter (fun parent => !parent.ownsSubEvents) with
    | some parent =>
        rw [passes] at taken
        cases taken
    | none =>
        rw [passes] at taken
        cases creates : registry.create record.kind record.payload with
        | error error =>
            rw [creates] at taken
            cases taken
        | ok behavior =>
            rw [creates] at taken
            cases taken
            refine ⟨closed.roots, ⟨⟨fun _ => rfl, trivial⟩, closed.openNodes⟩, ?_⟩
            intro parent isParent
            rcases innermost with ⟨roots, openNodes⟩
            cases openNodes with
            | nil => cases isParent
            | cons head outer =>
                rcases List.mem_cons.mp isParent with rfl | isOuter
                · simpa using Option.filter_eq_none_iff.mp passes parent rfl
                · exact closed.enclosing parent isOuter

theorem Owned.addAll {registry : Registry β} {forest : Forest β} :
    ∀ {records : List EventRecord} {position : Nat} {rebuilding : Rebuilding β}
      {population : Population}, rebuilding.Owned →
      (addAll registry position records rebuilding population).1 = .ok forest →
      Forest.Owned forest := by
  intro records
  induction records with
  | nil =>
      intro position rebuilding population owned restored
      cases restored
      exact (owned.closeTo 0).roots
  | cons record rest induction =>
      intro position rebuilding population owned restored
      cases taken : (rebuilding.add registry position record population).1 with
      | ok next =>
          rw [addAll_of_ok taken] at restored
          exact induction (owned.add taken) restored
      | error error =>
          rw [addAll_of_error taken] at restored
          cases restored

end Rebuilding

/-- Whatever a snapshot says, nodes of the restored forest only have sub-events they own. -/
theorem Snapshot.owned_of_restore {registry : Registry β} {snapshot : Snapshot}
    {forest : Forest β} {population : Population}
    (restored : (snapshot.restore registry population).1 = .ok forest) : Forest.Owned forest := by
  rw [Snapshot.restore] at restored
  split at restored
  · cases restored
  · have empty : Rebuilding.Owned ({} : Rebuilding β) := by
      refine ⟨trivial, trivial, ?_⟩
      rintro _ ⟨⟩
    exact empty.addAll restored

end

end EventSheet
