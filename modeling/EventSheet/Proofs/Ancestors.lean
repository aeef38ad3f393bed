import EventSheet.Node
namespace EventSheet

/-! # Nodes with their ancestors

The nodes of a forest in pre-order, each with the events it is nested in. How deep a node is nested
is how many these are. -/

/-- A node and the events it is nested in, the innermost first. -/
structure Lineage (β : Type) where
  ancestors : List (Event β)
  node : Node β

mutual
def Node.lineages {β : Type} (ancestors : List (Event β)) : Node β → List (Lineage β)
  | ⟨event, subEvents⟩ =>
      ⟨ancestors, ⟨event, subEvents⟩⟩ :: Forest.lineages (event :: ancestors) subEvents

/-- Every node of a forest in pre-order, with the events it is nested in. -/
def Forest.lineages {β : Type} (ancestors : List (Event β)) : List (Node β) → List (Lineage β)
  | [] => []
  | head :: tail => head.lineages ancestors ++ Forest.lineages ancestors tail
end

mutual
theorem Node.walk_eq_lineages {β : Type} : ∀ (node : Node β) (ancestors : List (Event β)),
    node.walk ancestors.length =
      (node.lineages ancestors).map fun lineage => (lineage.node, lineage.ancestors.length)
  | ⟨event, subEvents⟩, ancestors => by
      have inner := Forest.walk_eq_lineages subEvents (event :: ancestors)
      rw [List.length_cons] at inner
      rw [Node.walk, inner, Node.lineages, List.map_cons]

/-- The nesting depth of a node is the number of events it is nested in. -/
theorem Forest.walk_eq_lineages {β : Type} : ∀ (forest : List (Node β))
    (ancestors : List (Event β)),
    Forest.walkFrom ancestors.length forest =
      (Forest.lineages ancestors forest).map fun lineage =>
        (lineage.node, lineage.ancestors.length)
  | [], _ => rfl
  | head :: tail, ancestors => by
      rw [Forest.walkFrom, head.walk_eq_lineages ancestors, Forest.walk_eq_lineages tail ancestors,
        Forest.lineages, List.map_append]
end

mutual
theorem Node.suffix_of_mem_lineages {β : Type} {lineage : Lineage β} :
    ∀ {node : Node β} {ancestors : List (Event β)}, lineage ∈ node.lineages ancestors →
      ancestors <:+ lineage.ancestors
  | ⟨event, subEvents⟩, ancestors, isLineage => by
      rcases List.mem_cons.mp isLineage with rfl | inner
      · exact List.suffix_refl _
      · exact (List.suffix_cons event ancestors).trans (Forest.suffix_of_mem_lineages inner)

theorem Forest.suffix_of_mem_lineages {β : Type} {lineage : Lineage β} :
    ∀ {forest : List (Node β)} {ancestors : List (Event β)},
      lineage ∈ Forest.lineages ancestors forest → ancestors <:+ lineage.ancestors
  | _ :: _, _, isLineage => by
      rcases List.mem_append.mp isLineage with isHead | isTail
      · exact Node.suffix_of_mem_lineages isHead
      · exact Forest.suffix_of_mem_lineages isTail
end

end EventSheet
