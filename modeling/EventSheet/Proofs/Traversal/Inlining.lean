import EventSheet.Proofs.Lineage.Origins
import EventSheet.Proofs.Traversal.Inclusion
namespace EventSheet

/-! # Expanding links is inlining

The traversal splices the content of a sheet into the forest it is walking and looks at it again,
with one budget for all of it. What comes out is the forest in which every active link is replaced
by the content of its sheet, with the links in there replaced in the same way. -/

/-! ## Forests of one shape -/

section

variable {β : Type} {Stands : Event β → Event β → Prop}

mutual
def Node.StandsFor (Stands : Event β → Event β → Prop) : Node β → Node β → Prop
  | ⟨source, subEvents⟩, ⟨event, below⟩ =>
      Stands source event ∧ Forest.StandFor Stands subEvents below

/-- Two forests of the same shape, with related events in the same places. -/
def Forest.StandFor (Stands : Event β → Event β → Prop) :
    List (Node β) → List (Node β) → Prop
  | [], [] => True
  | source :: sources, node :: nodes =>
      source.StandsFor Stands node ∧ Forest.StandFor Stands sources nodes
  | [], _ :: _ => False
  | _ :: _, [] => False
end

theorem Node.standsFor_iff {source node : Node β} :
    source.StandsFor Stands node ↔ Stands source.event node.event ∧
      Forest.StandFor Stands source.subEvents node.subEvents := by
  cases source
  cases node
  rw [StandsFor]

theorem Node.ids_eq (node : Node β) : node.ids = node.event.id :: Forest.ids node.subEvents := by
  cases node
  rw [ids]

theorem Forest.standFor_nil {nodes : Forest β} (same : Forest.StandFor Stands [] nodes) :
    nodes = [] := by
  cases nodes with
  | nil => rfl
  | cons _ _ => exact same.elim

theorem Forest.standFor_cons {source : Node β} {sources nodes : Forest β}
    (same : Forest.StandFor Stands (source :: sources) nodes) :
    ∃ node rest, nodes = node :: rest ∧ source.StandsFor Stands node ∧
      Forest.StandFor Stands sources rest := by
  cases nodes with
  | nil => exact same.elim
  | cons node rest => exact ⟨node, rest, rfl, same⟩

mutual
theorem Node.standsFor_refl (refl : ∀ event, Stands event event) :
    ∀ node : Node β, node.StandsFor Stands node
  | ⟨event, subEvents⟩ => ⟨refl event, Forest.standFor_refl refl subEvents⟩

theorem Forest.standFor_refl (refl : ∀ event, Stands event event) :
    ∀ forest : List (Node β), Forest.StandFor Stands forest forest
  | [] => trivial
  | head :: tail => ⟨Node.standsFor_refl refl head, Forest.standFor_refl refl tail⟩
end

mutual
theorem Node.standsFor_copy : ∀ (node : Node β) (population : Population),
    node.StandsFor (fun source event => event.IsCopyOf source)
      (node.copy Event.itself population).1
  | ⟨event, subEvents⟩, population =>
      ⟨rfl, Forest.standFor_copy subEvents (event.copy Event.itself population).2⟩

/-- In the places of a forest the copy has copies that remember what they were made from. -/
theorem Forest.standFor_copy : ∀ (forest : List (Node β)) (population : Population),
    Forest.StandFor (fun source event => event.IsCopyOf source) forest
      (Forest.copy Event.itself forest population).1
  | [], _ => trivial
  | head :: tail, population =>
      ⟨Node.standsFor_copy head population,
        Forest.standFor_copy tail (head.copy Event.itself population).2⟩
end

/-- Related events are of the same behavior, and disabled together. -/
def Event.Faithful (Stands : Event β → Event β → Prop) : Prop :=
  ∀ source event, Stands source event →
    event.behavior = source.behavior ∧ event.disabled = source.disabled

theorem Event.faithful_eq : Faithful (β := β) Eq := by
  rintro source event rfl
  exact ⟨rfl, rfl⟩

theorem Event.faithful_isCopyOf :
    Faithful (fun source event : Event β => event.IsCopyOf source) := by
  intro source event copies
  exact ⟨copies.behavior_eq, (congrArg Event.disabled copies).trans rfl⟩

end

/-! ## Inlining -/

open Kind (Builtin Link)

/-- One forest is another with its active links inlined. `Stands` relates the events that are no
active links to those in their places; the events of an inlined sheet stand for those of the
sheet by being copies that remember them. -/
inductive Inlines (externals : Named (Forest Builtin)) :
    (Event Builtin → Event Builtin → Prop) → Forest Builtin → Forest Builtin → Prop
  | nil {Stands : Event Builtin → Event Builtin → Prop} : Inlines externals Stands [] []
  /-- A disabled tree is kept as it is, links and all. -/
  | disabled {Stands : Event Builtin → Event Builtin → Prop} {head node : Node Builtin}
      {tail rest : Forest Builtin} (disabled : head.event.disabled = true)
      (same : head.StandsFor Stands node) (behind : Inlines externals Stands tail rest) :
      Inlines externals Stands (head :: tail) (node :: rest)
  | other {Stands : Event Builtin → Event Builtin → Prop} {head node : Node Builtin}
      {tail rest : Forest Builtin} (enabled : head.event.disabled = false)
      (noLink : head.event.behavior.target? = none) (same : Stands head.event node.event)
      (inside : Inlines externals Stands head.subEvents node.subEvents)
      (behind : Inlines externals Stands tail rest) :
      Inlines externals Stands (head :: tail) (node :: rest)
  /-- A link with all below it gives way to the inlined content of its sheet. -/
  | included {Stands : Event Builtin → Event Builtin → Prop} {head : Node Builtin}
      {tail sheet content rest : Forest Builtin} {target : String}
      (enabled : head.event.disabled = false)
      (link : head.event.behavior.target? = some target)
      (known : externals.lookup target = some sheet)
      (inlined : Inlines externals (fun source event => event.IsCopyOf source) sheet content)
      (behind : Inlines externals Stands tail rest) :
      Inlines externals Stands (head :: tail) (content ++ rest)
  | unknown {Stands : Event Builtin → Event Builtin → Prop} {head : Node Builtin}
      {tail rest : Forest Builtin} {target : String} (enabled : head.event.disabled = false)
      (link : head.event.behavior.target? = some target)
      (missing : externals.lookup target = none)
      (behind : Inlines externals Stands tail rest) :
      Inlines externals Stands (head :: tail) rest

namespace Preprocess

/-! ## Stretches of a pass -/

section

variable {β σ : Type} {visitor : Visitor β σ}

/-- When the cursor comes to these nodes, whatever is in front of them and behind them, it goes
past them; it leaves others in their place. -/
def Walks (visitor : Visitor β σ) (nodes : Forest β) (state : σ) (left : Forest β)
    (after : σ) : Prop :=
  ∀ (before behind : Forest β) {calls : List (Call β σ)} {result : Forest β} {final : σ},
    Traverses visitor (before ++ left ++ behind) (before.length + left.length) after calls
      result final →
    ∃ all, Traverses visitor (before ++ nodes ++ behind) before.length state all result final

variable {node : Node β} {nodes tail left rest below : Forest β} {behavior : β}
  {splice : Splice β} {state visited between after : σ}

theorem found_behind (before : Forest β) (node : Node β) (behind : Forest β) :
    (before ++ node :: behind)[before.length]? = some node := by
  rw [List.getElem?_append_right (Nat.le_refl _), Nat.sub_self, List.getElem?_cons_zero]

theorem splice_behind (before : Forest β) (node : Node β) (nodes behind : Forest β) :
    Forest.splice (before ++ node :: behind) before.length nodes = before ++ nodes ++ behind := by
  rw [Forest.splice, List.take_left, List.drop_append, Nat.add_sub_cancel_left]
  simp

namespace Walks

theorem nil (state : σ) : Walks visitor [] state [] state :=
  fun _ _ _ _ _ onward => ⟨_, onward⟩

theorem append (first : Walks visitor nodes state left between)
    (second : Walks visitor tail between rest after) :
    Walks visitor (nodes ++ tail) state (left ++ rest) after := by
  intro before behind calls result final onward
  have beyond : Traverses visitor (before ++ left ++ rest ++ behind)
      ((before ++ left).length + rest.length) after calls result final := by
    rwa [List.length_append, Nat.add_assoc, ← List.length_append, List.append_assoc before]
  rcases second (before ++ left) behind beyond with ⟨later, passed⟩
  rw [List.length_append, List.append_assoc _ tail] at passed
  rcases first before (tail ++ behind) passed with ⟨all, whole⟩
  refine ⟨all, ?_⟩
  rwa [← List.append_assoc before, List.append_assoc _ tail]

/-- The pass over a forest of its own. -/
theorem alone (walks : Walks visitor nodes state left after) :
    ∃ calls, Traverses visitor nodes 0 state calls left after := by
  have arrived := walks [] [] (.finished (by simp))
  simpa using arrived

theorem skip (disabled : node.event.disabled = true) (state : σ) :
    Walks visitor [node] state [node] state := by
  intro before behind calls result final onward
  rw [List.append_assoc, List.singleton_append] at onward ⊢
  exact ⟨_, .skip (found_behind before node behind) disabled onward⟩

theorem stay (enabled : node.event.disabled = false)
    (visit : ∀ siblings, visitor.visit node.event siblings state = ((behavior, .keep), visited))
    (inside : Walks visitor node.subEvents visited below after) :
    Walks visitor [node] state [{ node.setBehavior behavior with subEvents := below }] after := by
  intro before behind calls result final onward
  rcases inside.alone with ⟨inner, walked⟩
  rw [← splice_behind before node _ behind] at onward
  rw [List.append_assoc, List.singleton_append]
  exact ⟨_, .stay (found_behind before node behind) enabled (visit _) rfl walked onward⟩

theorem go (enabled : node.event.disabled = false)
    (visit : ∀ siblings, visitor.visit node.event siblings state = ((behavior, splice), visited))
    (goes : splice.replacement? = some nodes)
    (walks : Walks visitor nodes (visitor.discard (node.setBehavior behavior) visited).2 left
      after) :
    Walks visitor [node] state left after := by
  intro before behind calls result final onward
  rcases walks before behind onward with ⟨later, walked⟩
  rw [← splice_behind before node nodes behind] at walked
  rw [List.append_assoc, List.singleton_append]
  exact ⟨_, .go (found_behind before node behind) enabled (visit _) goes walked⟩

end Walks

end

/-! ## Visits of links -/

section

variable (event : Event Builtin) {target : String} (state : PassState Builtin)
  {sheet : Forest Builtin}

theorem visit_other (noLink : event.behavior.target? = none) (siblings : Siblings Builtin) :
    Pass.visitor.visit event siblings state =
      ((event.behavior, .keep), (state.asking event).settled) := by
  rcases visit : Pass.visitor.visit event siblings state with ⟨⟨behavior, splice⟩, visited⟩
  rcases linkVisit_of_visit visit with ⟨rfl, ends⟩
  cases ends with
  | plain _ => rfl
  | unknown link _ => exact absurd (noLink.symm.trans link) nofun
  | expanded link _ _ => exact absurd (noLink.symm.trans link) nofun
  | exhausted link _ _ => exact absurd (noLink.symm.trans link) nofun

theorem visit_unknown (link : event.behavior.target? = some target)
    (missing : state.context.external? target = none) (siblings : Siblings Builtin) :
    Pass.visitor.visit event siblings state = ((event.behavior, .remove),
      ((state.asking event).report (Link.unknownTarget target)).settled) := by
  rcases visit : Pass.visitor.visit event siblings state with ⟨⟨behavior, splice⟩, visited⟩
  rcases linkVisit_of_visit visit with ⟨rfl, ends⟩
  cases ends with
  | plain noLink => exact absurd (noLink.symm.trans link) nofun
  | unknown again _ =>
      cases link.symm.trans again
      rfl
  | expanded again known _ =>
      cases link.symm.trans again
      exact absurd (missing.symm.trans known) nofun
  | exhausted again known _ =>
      cases link.symm.trans again
      exact absurd (missing.symm.trans known) nofun

theorem visit_included (link : event.behavior.target? = some target)
    (known : state.context.external? target = some sheet)
    (within : state.context.linkExpansions < state.context.maxLinkExpansions)
    (siblings : Siblings Builtin) :
    Pass.visitor.visit event siblings state =
      ((event.behavior, .replace (Forest.cloneRemembering sheet state.population).1),
        ((state.asking event).expand sheet).settled) := by
  rcases visit : Pass.visitor.visit event siblings state with ⟨⟨behavior, splice⟩, visited⟩
  rcases linkVisit_of_visit visit with ⟨rfl, ends⟩
  cases ends with
  | plain noLink => exact absurd (noLink.symm.trans link) nofun
  | unknown again missing =>
      cases link.symm.trans again
      exact absurd (missing.symm.trans known) nofun
  | expanded again found _ =>
      cases link.symm.trans again
      cases known.symm.trans found
      rfl
  | exhausted _ _ spent => exact absurd within (Nat.not_lt_of_le spent)

end

/-- What expanding links does to a context: each expansion is counted, and each target that is no
sheet is reported with one warning. -/
structure LinkCost (before : PreprocessContext Builtin) (expansions : Nat)
    (unknown : List String) (after : PreprocessContext Builtin) : Prop where
  externals : after.externals = before.externals
  limit : after.maxLinkExpansions = before.maxLinkExpansions
  expansions : after.linkExpansions = before.linkExpansions + expansions
  warnings : ∃ reports, after.diagnostics = before.diagnostics ++ reports ∧
    reports.map (fun report => { report with node := none }) = unknown.map Link.unknownTarget

namespace LinkCost

variable {before between after : PreprocessContext Builtin} {inner outer : Nat}
  {unknown unknownBelow unknownBehind : List String}

theorem nothing (context : PreprocessContext Builtin) : LinkCost context 0 [] context where
  externals := rfl
  limit := rfl
  expansions := rfl
  warnings := ⟨[], (List.append_nil _).symm, rfl⟩

theorem append (first : LinkCost before inner unknownBelow between)
    (second : LinkCost between outer unknownBehind after) :
    LinkCost before (inner + outer) (unknownBelow ++ unknownBehind) after where
  externals := second.externals.trans first.externals
  limit := second.limit.trans first.limit
  expansions := by rw [second.expansions, first.expansions, Nat.add_assoc]
  warnings := by
    rcases first.warnings with ⟨earlier, firstReports, firstWarnings⟩
    rcases second.warnings with ⟨later, secondReports, secondWarnings⟩
    refine ⟨earlier ++ later, ?_, ?_⟩
    · rw [secondReports, firstReports, List.append_assoc]
    · rw [List.map_append, List.map_append, firstWarnings, secondWarnings]

theorem asked (event : Event Builtin) (state : PassState Builtin) :
    LinkCost state.context 0 [] (state.asking event).settled.context where
  externals := rfl
  limit := rfl
  expansions := rfl
  warnings := ⟨[], (List.append_nil _).symm, rfl⟩

theorem warned (event : Event Builtin) (target : String) (state : PassState Builtin) :
    LinkCost state.context 0 [target]
      ((state.asking event).report (Link.unknownTarget target)).settled.context where
  externals := rfl
  limit := rfl
  expansions := rfl
  warnings := ⟨_, rfl, rfl⟩

theorem expanded (event : Event Builtin) (sheet : Forest Builtin) (state : PassState Builtin) :
    LinkCost state.context 1 [] ((state.asking event).expand sheet).settled.context where
  externals := rfl
  limit := rfl
  expansions := rfl
  warnings := ⟨[], (List.append_nil _).symm, rfl⟩

/-- A budget for all of it is enough for what comes later. -/
theorem within (first : LinkCost before inner unknown between)
    (enough : before.linkExpansions + (inner + outer) ≤ before.maxLinkExpansions) :
    between.linkExpansions + outer ≤ between.maxLinkExpansions := by
  rw [first.expansions, first.limit, Nat.add_assoc]
  exact enough

end LinkCost

/-! ## The pass -/

/-- A pass over nodes that stand for a forest leaves that forest inlined, as long as the budget
covers what there is to expand. -/
theorem walks_of_unfolds {externals : Named (Forest Builtin)} {forest : Forest Builtin}
    {expansions : Nat} {unknown : List String}
    (unfolds : Unfolds externals forest expansions unknown) :
    ∀ (state : PassState Builtin) {Stands : Event Builtin → Event Builtin → Prop}
      {nodes : Forest Builtin}, Event.Faithful Stands → Forest.StandFor Stands forest nodes →
      state.context.externals = externals →
      state.context.linkExpansions + expansions ≤ state.context.maxLinkExpansions →
      ∃ left after, Walks Pass.visitor nodes state left after ∧
        Inlines externals Stands forest left ∧
        LinkCost state.context expansions unknown after.context := by
  induction unfolds with
  | nil =>
      intro state Stands nodes faithful same sheets enough
      cases Forest.standFor_nil same
      exact ⟨[], state, .nil state, .nil, .nothing _⟩
  | disabled disabled _ behindInduction =>
      intro state Stands nodes faithful same sheets enough
      rcases Forest.standFor_cons same with ⟨node, tail, rfl, alike, sameTail⟩
      have skipped := (faithful _ _ (Node.standsFor_iff.mp alike).1).2.trans disabled
      rcases behindInduction state faithful sameTail sheets enough with
        ⟨left, after, walks, inlines, cost⟩
      exact ⟨node :: left, after, (Walks.skip skipped state).append walks,
        .disabled disabled alike inlines, cost⟩
  | other enabled noLink _ _ insideInduction behindInduction =>
      intro state Stands nodes faithful same sheets enough
      rcases Forest.standFor_cons same with ⟨node, tail, rfl, alike, sameTail⟩
      rcases Node.standsFor_iff.mp alike with ⟨sameEvent, sameSubEvents⟩
      rcases faithful _ _ sameEvent with ⟨sameBehavior, sameFlag⟩
      have asked := LinkCost.asked node.event state
      rcases insideInduction _ faithful sameSubEvents (asked.externals.trans sheets)
          (asked.within (by omega)) with
        ⟨below, between, walksBelow, inlinesBelow, costBelow⟩
      have costInside := asked.append costBelow
      rw [Nat.zero_add, List.nil_append] at costInside
      rcases behindInduction between faithful sameTail (costInside.externals.trans sheets)
          (costInside.within enough) with
        ⟨left, after, walks, inlines, cost⟩
      have stays := Walks.stay (sameFlag.trans enabled)
        (visit_other node.event state (by rwa [sameBehavior])) walksBelow
      exact ⟨_, after, stays.append walks, .other enabled noLink sameEvent inlinesBelow inlines,
        costInside.append cost⟩
  | @included head tail sheet target inner outer unknownBelow unknownBehind enabled link known
      content behind contentInduction behindInduction =>
      intro state Stands nodes faithful same sheets enough
      rcases Forest.standFor_cons same with ⟨node, tail, rfl, alike, sameTail⟩
      rcases Node.standsFor_iff.mp alike with ⟨sameEvent, _⟩
      rcases faithful _ _ sameEvent with ⟨sameBehavior, sameFlag⟩
      have visit := visit_included node.event state
        (by rw [sameBehavior]; exact link)
        (by rw [PreprocessContext.external?, sheets]; exact known) (by omega)
      rw [Forest.cloneRemembering_eq_copy] at visit
      have counted := LinkCost.expanded node.event sheet state
      rcases contentInduction (Pass.visitor.discard (node.setBehavior node.event.behavior)
            ((state.asking node.event).expand sheet).settled).2
          Event.faithful_isCopyOf (Forest.standFor_copy sheet state.population)
          (counted.externals.trans sheets)
          (counted.within (by omega))
        with ⟨below, between, walksBelow, inlinesBelow, costBelow⟩
      have costInside := counted.append costBelow
      rw [List.nil_append] at costInside
      rcases behindInduction between faithful sameTail (costInside.externals.trans sheets)
          (costInside.within enough) with
        ⟨left, after, walks, inlines, cost⟩
      have goes := Walks.go (sameFlag.trans enabled) visit rfl walksBelow
      exact ⟨_, after, goes.append walks, .included enabled link known inlinesBelow inlines,
        costInside.append cost⟩
  | @unknown head tail target expansions unknown enabled link missing behind behindInduction =>
      intro state Stands nodes faithful same sheets enough
      rcases Forest.standFor_cons same with ⟨node, tail, rfl, alike, sameTail⟩
      rcases Node.standsFor_iff.mp alike with ⟨sameEvent, _⟩
      rcases faithful _ _ sameEvent with ⟨sameBehavior, sameFlag⟩
      have visit := visit_unknown node.event state
        (by rw [sameBehavior]; exact link)
        (by rw [PreprocessContext.external?, sheets]; exact missing)
      have warned := LinkCost.warned node.event target state
      rcases behindInduction (Pass.visitor.discard (node.setBehavior node.event.behavior)
            ((state.asking node.event).report (Link.unknownTarget target)).settled).2
          faithful sameTail (warned.externals.trans sheets)
          (warned.within (by omega)) with
        ⟨left, after, walks, inlines, cost⟩
      have goes := Walks.go (sameFlag.trans enabled) visit rfl (Walks.nil _)
      have total := warned.append cost
      rw [Nat.zero_add] at total
      exact ⟨left, after, goes.append walks, .unknown enabled link missing inlines, total⟩

/-! ## Who exists behind a pass -/

section

variable {forest result nodes : Forest Builtin} {cursor : Nat} {node : Node Builtin}
  {state after : PassState Builtin} {calls : List (Call Builtin (PassState Builtin))}
  {id : NodeId}

theorem mem_ids_of_found (found : forest[cursor]? = some node) (isOne : id ∈ node.ids) :
    id ∈ Forest.ids forest := by
  rw [Node.ids_eq_map_members] at isOne
  rcases List.mem_map.mp isOne with ⟨event, isMember, rfl⟩
  rw [Forest.ids_eq_map_members]
  exact List.mem_map_of_mem (Forest.mem_members_of_found found isMember)

theorem mem_ids_splice (isOne : id ∈ Forest.ids (forest.splice cursor nodes)) :
    id ∈ Forest.ids forest ∨ id ∈ Forest.ids nodes := by
  rw [Forest.ids_eq_map_members] at isOne
  rcases List.mem_map.mp isOne with ⟨event, isMember, rfl⟩
  rw [Forest.ids_eq_map_members, Forest.ids_eq_map_members]
  exact (Forest.mem_members_splice isMember).imp List.mem_map_of_mem List.mem_map_of_mem

/-- A visit ends no node, and what it brings is new. -/
theorem LinkVisit.isAlive {event : Event Builtin} {splice : Splice Builtin}
    {visited : PassState Builtin} (visit : LinkVisit event state splice visited)
    (alive : state.population.isAlive id = true) :
    visited.population.isAlive id = true ∧
      ∀ nodes, splice.replacement? = some nodes → id ∉ Forest.ids nodes := by
  cases visit with
  | plain _ => exact ⟨alive, fun _ goes => nomatch goes⟩
  | unknown _ _ =>
      refine ⟨alive, fun _ goes => ?_⟩
      cases goes
      exact List.not_mem_nil
  | @expanded target sheet _ _ _ =>
      have older := Population.lt_nextId_of_isAlive alive
      have spared := (Forest.spares_copy Event.itself _ sheet state.population).spared id older
        (Nat.le_refl _)
      rw [← Forest.cloneRemembering_eq_copy] at spared
      refine ⟨spared.trans alive, fun nodes goes isOne => ?_⟩
      cases goes
      rw [Forest.ids_eq_map_members, Forest.cloneRemembering_eq_copy] at isOne
      rcases List.mem_map.mp isOne with ⟨copy, isCopy, rfl⟩
      exact Nat.not_lt_of_le (Forest.copiesOneOf_copy sheet _ copy isCopy).1 older
  | exhausted _ _ _ =>
      refine ⟨alive, fun _ goes => ?_⟩
      cases goes
      exact List.not_mem_nil

/-- A pass destroys nodes of its forest and nodes it made, and no others. -/
theorem Traverses.isAlive_of_not_mem
    (traverses : Traverses Pass.visitor forest cursor state calls result after)
    (alive : state.population.isAlive id = true) (outside : id ∉ Forest.ids forest) :
    after.population.isAlive id = true ∧ id ∉ Forest.ids result := by
  induction traverses with
  | finished _ => exact ⟨alive, outside⟩
  | skip _ _ _ induction => exact induction alive outside
  | @stay forest subEvents result inserted cursor node behavior splice state visited below after
      inner outer found enabled visit stays inside onward insideInduction onwardInduction =>
      rcases linkVisit_of_visit visit with ⟨rfl, ends⟩
      rcases ends.eq_keep stays with ⟨rfl, -⟩
      have outsideNode := mt (mem_ids_of_found found) outside
      rw [Node.ids_eq, List.mem_cons, not_or] at outsideNode
      rcases insideInduction (ends.isAlive alive).1 outsideNode.2 with
        ⟨aliveBelow, outsideBelow⟩
      refine onwardInduction aliveBelow fun isOne => ?_
      rcases mem_ids_splice isOne with wasOne | isNew
      · exact outside wasOne
      · rw [Forest.ids, Forest.ids, List.append_nil, Node.ids_eq, List.mem_cons] at isNew
        exact isNew.elim outsideNode.1 outsideBelow
  | @go forest result nodes cursor node behavior splice state visited after calls found enabled
      visit goes onward induction =>
      rcases linkVisit_of_visit visit with ⟨rfl, ends⟩
      rcases ends.isAlive alive with ⟨aliveVisited, outsideNodes⟩
      have outsideNode := mt (mem_ids_of_found found) outside
      apply induction
      · rw [population_discard, Population.isAlive_retireAll, aliveVisited,
          decide_eq_true outsideNode]
        rfl
      · exact fun isOne => (mem_ids_splice isOne).elim outside (outsideNodes nodes goes)

end

end Preprocess

open Preprocess

/-- Preprocessing inlines. When no sheet includes itself, directly or through others, a forest has
one number of links to expand and one list of targets that are no sheets. With a budget for that
many expansions the pass ends with the forest in which every active link is replaced by the inlined
content of its sheet, or by nothing when there is no such sheet, and every other event is as it
was and where it was. It counts the expansions, gives one warning for each target that is no
sheet, and reports nothing else. The copies in the content of a sheet remember what is in their
places there, which is their original as long as it exists; the pass destroys nothing but nodes
of its forest and nodes it made. -/
theorem Forest.preprocess_inlines {externals : Named (Forest Builtin)}
    (acyclic : Acyclic externals) (forest : Forest Builtin) :
    ∃ expansions unknown, Unfolds externals forest expansions unknown ∧
      (∀ others unknown', Unfolds externals forest others unknown' →
        others = expansions ∧ unknown' = unknown) ∧
      ∀ state : PassState Builtin, state.context.externals = externals →
        state.context.linkExpansions + expansions ≤ state.context.maxLinkExpansions →
        ∃ calls result after, forest.Passes state calls result after ∧
          Inlines externals Eq forest result ∧
          LinkCost state.context expansions unknown after.context ∧
          ∀ source copy : Event Builtin, copy.IsCopyOf source →
            state.population.isAlive source.id = true → source.id ∉ Forest.ids forest →
            copy.remembered? after.population = some source.id := by
  rcases exists_unfolds acyclic forest with ⟨expansions, unknown, unfolds⟩
  refine ⟨expansions, unknown, unfolds, fun _ _ => unfolds.unique, ?_⟩
  intro state sheets enough
  have sameForest := Forest.standFor_refl (fun _ => rfl) forest
  rcases walks_of_unfolds unfolds state Event.faithful_eq sameForest sheets enough with
    ⟨result, after, walks, inlines, cost⟩
  rcases walks.alone with ⟨calls, traverses⟩
  refine ⟨calls, result, after, traverses.passes, inlines, cost, ?_⟩
  intro source copy copies alive outside
  have remains := (traverses.isAlive_of_not_mem alive outside).1
  rw [Event.remembered?, copies.remembered_eq, Population.resolve, Option.filter_some_pos remains]

/-- A sheet that includes another one and an unknown one, with a disabled link to itself. -/
def nestedSheets : Named (Forest Builtin) :=
  [("inner", [⟨{ id := 1, behavior := .comment {} }, []⟩]),
    ("outer", [⟨{ id := 2, behavior := .link { target := "inner" } }, []⟩,
      ⟨{ id := 3, behavior := .link { target := "outer" }, disabled := true }, []⟩,
      ⟨{ id := 4, behavior := .link { target := "gone" } }, []⟩])]

def nestedLink : Forest Builtin :=
  [⟨{ id := 5, behavior := .link { target := "outer" } }, []⟩]

theorem acyclic_nestedSheets : Acyclic nestedSheets := by
  apply acyclic_of_rank fun name => if name = "outer" then 1 else 0
  rintro outer inner ⟨sheet, known, isTarget, included⟩
  by_cases isOuter : outer = "outer"
  · subst isOuter
    cases known
    have targets : inner = "inner" ∨ inner = "gone" := by
      simpa [Forest.targets, Forest.active, Node.active, Builtin.target?] using isTarget
    rcases targets with rfl | rfl <;> decide
  · have isInner : outer = "inner" := by
      have isName := mem_names_of_lookup known
      simpa [nestedSheets, isOuter] using isName
    subst isInner
    cases known
    simp [Forest.targets, Forest.active, Node.active, Builtin.target?] at isTarget

theorem unfolds_nestedLink : Unfolds nestedSheets nestedLink 2 ["gone"] := by
  show Unfolds nestedSheets nestedLink (1 + (1 + (0 + 0) + 0) + 0) ([] ++ [] ++ ["gone"] ++ [])
  exact .included rfl rfl rfl
    (.included rfl rfl rfl (.other rfl rfl .nil .nil)
      (.disabled rfl (.unknown rfl rfl rfl .nil)))
    .nil

theorem Forest.preprocess_inlines_nestedSheets :
    Acyclic nestedSheets ∧ ∃ calls result after,
      Forest.Passes nestedLink
        ⟨{ scope := "main", externals := nestedSheets, maxLinkExpansions := 2 }, {}⟩
        calls result after ∧
      Inlines nestedSheets Eq nestedLink result ∧ after.context.linkExpansions = 2 := by
  rcases Forest.preprocess_inlines acyclic_nestedSheets nestedLink with
    ⟨expansions, unknown, _, unique, passes⟩
  rcases unique _ _ unfolds_nestedLink with ⟨rfl, rfl⟩
  rcases passes ⟨{ scope := "main", externals := nestedSheets, maxLinkExpansions := 2 }, {}⟩
      rfl (Nat.le_refl 2) with
    ⟨calls, result, after, ends, inlines, cost, _⟩
  exact ⟨acyclic_nestedSheets, calls, result, after, ends, inlines, cost.expansions⟩

end EventSheet
