import EventSheet.Proofs.Ancestors
import EventSheet.Proofs.Compilation.Recording
namespace EventSheet

/-! # Which events are generated

The nesting limit counts blocks. A sub-event lies in one block for every event around it, and in
one more for every repetition among them, whose body is a block besides that of its sub-events.
So how deep the events may be nested depends on how many repetitions they are nested in. -/

open Codegen

/-! ## Blocks -/

namespace Event

def isRepetition (event : Event Kind.Builtin) : Bool :=
  match event.behavior with
  | .repetition _ => true
  | _ => false

/-- The event is enabled, of a kind that generates its sub-events and, for a repetition, with a
count. -/
def generatesSubEvents (event : Event Kind.Builtin) : Bool :=
  !event.disabled &&
    match event.behavior with
    | .standard _ => true
    | .repetition repetition => !repetition.count.isEmpty
    | _ => false

/-- The number of blocks around the sub-events of events nested in one another. -/
def blocks (ancestors : List (Event Kind.Builtin)) : Nat :=
  ancestors.length + ancestors.countP isRepetition

theorem blocks_cons (event : Event Kind.Builtin) (ancestors : List (Event Kind.Builtin)) :
    blocks (event :: ancestors) = blocks ancestors + 1 + if event.isRepetition then 1 else 0 := by
  rw [blocks, blocks, List.length_cons, List.countP_cons]
  omega

theorem blocks_le_of_suffix {outer ancestors : List (Event Kind.Builtin)}
    (suffix : outer <:+ ancestors) : blocks outer ≤ blocks ancestors :=
  Nat.add_le_add suffix.length_le (suffix.sublist.countP_le)

end Event

namespace Lineage

/-- The events around the node all generate their sub-events, in at most `limit` blocks. -/
def reached (limit : Nat) (lineage : Lineage Kind.Builtin) : Bool :=
  lineage.ancestors.all Event.generatesSubEvents &&
    decide (Event.blocks lineage.ancestors ≤ limit)

def allReached (limit : Nat) (lineages : List (Lineage Kind.Builtin)) :
    List (Node Kind.Builtin) :=
  (lineages.filter (reached limit)).map Lineage.node

end Lineage

namespace Codegen.Program

/-- The nodes whose code is generated, with the events around them. -/
def reachedLineages (settings : Settings) (ancestors : List (Event Kind.Builtin))
    (forest : List (Node Kind.Builtin)) : List (Lineage Kind.Builtin) :=
  (Forest.lineages ancestors forest).filter
    (Lineage.reached settings.limits.maxNestingDepth.toNat)

theorem reachedLineages_cons {settings : Settings} {ancestors : List (Event Kind.Builtin)}
    (passed : ancestors.all Event.generatesSubEvents = true)
    (within : Event.blocks ancestors ≤ settings.limits.maxNestingDepth.toNat)
    (head : Node Kind.Builtin) (tail : List (Node Kind.Builtin)) :
    reachedLineages settings ancestors (head :: tail) =
      ⟨ancestors, head⟩ :: reachedLineages settings (head.event :: ancestors) head.subEvents ++
        reachedLineages settings ancestors tail := by
  rcases head with ⟨event, subEvents⟩
  have isReached : Lineage.reached settings.limits.maxNestingDepth.toNat
      ⟨ancestors, ⟨event, subEvents⟩⟩ = true := by
    rw [Lineage.reached, passed, decide_eq_true within, Bool.and_self]
  rw [reachedLineages, Forest.lineages, Node.lineages, List.cons_append,
    List.filter_cons_of_pos isReached, List.filter_append]
  rfl

/-- No node is reached below an event that is not passed, or in too many blocks. -/
theorem reachedLineages_eq_nil {settings : Settings} {ancestors : List (Event Kind.Builtin)}
    (stopped : ¬ (ancestors.all Event.generatesSubEvents = true ∧
      Event.blocks ancestors ≤ settings.limits.maxNestingDepth.toNat))
    (forest : List (Node Kind.Builtin)) : reachedLineages settings ancestors forest = [] := by
  rw [reachedLineages, List.filter_eq_nil_iff]
  intro lineage isLineage isReached
  have suffix := Forest.suffix_of_mem_lineages isLineage
  simp only [Lineage.reached, Bool.and_eq_true, decide_eq_true_eq] at isReached
  apply stopped
  constructor
  · rw [List.all_eq_true] at isReached ⊢
    exact fun event isEvent => isReached.1 event (suffix.subset isEvent)
  · exact Nat.le_trans (Event.blocks_le_of_suffix suffix) isReached.2

theorem reachedLineages_below_eq_nil {settings : Settings} {ancestors : List (Event Kind.Builtin)}
    {event : Event Kind.Builtin} (stops : event.generatesSubEvents = false)
    (subEvents : List (Node Kind.Builtin)) :
    reachedLineages settings (event :: ancestors) subEvents = [] := by
  apply reachedLineages_eq_nil
  intro passed
  rw [List.all_cons, stops] at passed
  cases passed.1

end Codegen.Program

/-! ## What is recorded -/

section

variable {ρ : Type} {watch : Program.Watch Kind.Builtin ρ} {settings : Settings}
  {population : Population}

open Program (watcher)

/-- What is recorded of a forest at a depth that events call for: an empty one is not asked for. -/
def Codegen.Program.Watch.leftOutAt (watch : Watch Kind.Builtin ρ) (settings : Settings)
    (depth : Nat) (forest : List (Node Kind.Builtin)) : List ρ :=
  if forest.isEmpty then []
  else if settings.limits.maxNestingDepth.toNat < depth then watch.leftOut forest
  else []

/-- What is recorded of a node, and of its sub-events when they are left out. -/
def Lineage.entries (watch : Program.Watch Kind.Builtin ρ) (settings : Settings)
    (lineage : Lineage Kind.Builtin) : List ρ :=
  watch.asked lineage.node ++
    if lineage.node.event.generatesSubEvents then
      watch.leftOutAt settings (Event.blocks (lineage.node.event :: lineage.ancestors))
        lineage.node.subEvents
    else []

/-- What is recorded of the nodes of a forest below some events. -/
def Codegen.Program.Watch.entriesBelow (watch : Watch Kind.Builtin ρ) (settings : Settings)
    (ancestors : List (Event Kind.Builtin)) (forest : List (Node Kind.Builtin)) : List ρ :=
  (reachedLineages settings ancestors forest).flatMap (Lineage.entries watch settings)

open Program.Watch (entriesBelow)

theorem Records.watchWhile {depth : Nat} {recorded : Emit (ProgramState × List ρ) String}
    {action : Emit ProgramState String} {more : List ρ} (inner : Records depth recorded action more)
    (entries : List ρ) (id : NodeId) :
    Records depth (Program.watchWhile entries id recorded) (Program.whileCompiling id action)
      (entries ++ more) := by
  intro emission before atDepth
  let entered : Emission ProgramState :=
    { emission with generator := { emission.generator with current := some id } }
  let leave (state : ProgramState) : ProgramState :=
    { state with current := emission.generator.current }
  rcases inner entered (before ++ entries) atDepth with ⟨same, sameDepth⟩
  have applied : Program.watchWhile entries id recorded (emission.beside before) =
      (fun outcome => (outcome.1, { outcome.2 with
        generator := (leave outcome.2.generator.1, outcome.2.generator.2) }))
        (recorded (entered.beside (before ++ entries))) := rfl
  refine ⟨?_, sameDepth⟩
  rw [applied, same, List.append_assoc]
  rfl

section

variable {depth : Nat}
  {recorded : List (Node Kind.Builtin × Emit (ProgramState × List ρ) String)}
  {nodes : List (Node Kind.Builtin × Emit ProgramState String)}

theorem Records.watchForest {entries : List ρ}
    (within : depth ≤ settings.limits.maxNestingDepth.toNat)
    (inner : Records depth
      (Program.watchNodes watch settings.profiling.emitHooks population recorded)
      (Program.compileNodes settings.profiling.emitHooks population nodes) entries) :
    Records depth (Program.watchForest watch settings population recorded)
      (Program.compileForest settings population nodes) entries := by
  intro emission before atDepth
  have notDeeper : ¬ settings.limits.maxNestingDepth.toNat < emission.scope.depth := by omega
  have compiled : Program.compileForest settings population nodes emission =
      Program.compileNodes settings.profiling.emitHooks population nodes emission :=
    congrFun (if_neg notDeeper) emission
  have alike : Program.watchForest watch settings population recorded (emission.beside before) =
      Program.watchNodes watch settings.profiling.emitHooks population recorded
        (emission.beside before) :=
    congrFun (if_neg notDeeper) (emission.beside before)
  rw [compiled, alike]
  exact inner emission before atDepth

/-- A forest in too many blocks is only reported. -/
theorem Records.watchForest_of_deeper
    (tooDeep : settings.limits.maxNestingDepth.toNat < depth)
    (sameNodes : recorded.map Prod.fst = nodes.map Prod.fst) :
    Records depth (Program.watchForest watch settings population recorded)
      (Program.compileForest settings population nodes)
      (watch.leftOut (nodes.map Prod.fst)) := by
  intro emission before atDepth
  have deeper : settings.limits.maxNestingDepth.toNat < emission.scope.depth := by omega
  have compiled : Program.compileForest settings population nodes emission = _ :=
    congrFun (if_pos deeper) emission
  have alike : Program.watchForest watch settings population recorded (emission.beside before) = _ :=
    congrFun (if_pos deeper) (emission.beside before)
  rw [compiled, alike, sameNodes, Forest.countNodes_eq_count]
  exact ⟨rfl, atDepth⟩

end

theorem Event.not_generatesSubEvents {event : Event Kind.Builtin}
    (skipped : (event.disabled || !EventKind.isExecutable event.behavior) = true) :
    event.generatesSubEvents = false := by
  rcases event with ⟨id, behavior, disabled⟩
  cases disabled with
  | true => rfl
  | false =>
      cases behavior with
      | comment comment => rfl
      | link link => rfl
      | standard standard => cases skipped
      | branch branch => cases skipped
      | repetition repetition => cases skipped

/-- Nodes are recorded in order when they lie in few enough blocks. -/
def RecordsNodes (watch : Program.Watch Kind.Builtin ρ) (settings : Settings)
    (population : Population) (ancestors : List (Event Kind.Builtin))
    (forest : List (Node Kind.Builtin)) : Prop :=
  ancestors.all Event.generatesSubEvents = true →
    Event.blocks ancestors ≤ settings.limits.maxNestingDepth.toNat →
    Records (Event.blocks ancestors)
      (Program.watchNodes watch settings.profiling.emitHooks population
        (Forest.generators (watcher watch settings population) forest))
      (Program.compileNodes settings.profiling.emitHooks population
        (Forest.generators (Program.generator settings population) forest))
      (entriesBelow watch settings ancestors forest)

namespace RecordsNodes

variable {ancestors : List (Event Kind.Builtin)} {forest : List (Node Kind.Builtin)}

theorem generateForest (nodes : RecordsNodes watch settings population ancestors forest)
    (passed : ancestors.all Event.generatesSubEvents = true) :
    Records (Event.blocks ancestors)
      (Forest.generate (watcher watch settings population) forest)
      (Forest.generate (Program.generator settings population) forest)
      ((if settings.limits.maxNestingDepth.toNat < Event.blocks ancestors then
          watch.leftOut forest else []) ++ entriesBelow watch settings ancestors forest) := by
  by_cases within : Event.blocks ancestors ≤ settings.limits.maxNestingDepth.toNat
  · rw [if_neg (Nat.not_lt_of_le within), List.nil_append]
    exact Records.watchForest within (nodes passed within)
  · have tooDeep := Nat.lt_of_not_le within
    rw [if_pos tooDeep, entriesBelow,
      Program.reachedLineages_eq_nil fun passes => within passes.2, List.flatMap_nil,
      List.append_nil]
    have sameNodes : (Forest.generators (watcher watch settings population) forest).map Prod.fst =
        (Forest.generators (Program.generator settings population) forest).map Prod.fst := by
      rw [Forest.map_fst_generators, Forest.map_fst_generators]
    have left : Records (Event.blocks ancestors)
        (Program.watchForest watch settings population _)
        (Program.compileForest settings population _) _ :=
      Records.watchForest_of_deeper tooDeep sameNodes
    rwa [Forest.map_fst_generators] at left

/-- What compiles the sub-events of an event, if it has any. -/
theorem ofSubEvents {depth : Nat} (nodes : RecordsNodes watch settings population ancestors forest)
    (passed : ancestors.all Event.generatesSubEvents = true)
    (deeper : Event.blocks ancestors = depth + 1) :
    Records.OfSubEvents settings population depth
      (if (Forest.generators (watcher watch settings population) forest).isEmpty then none
        else some (Forest.generate (watcher watch settings population) forest))
      (if (Forest.generators (Program.generator settings population) forest).isEmpty then none
        else some (Forest.generate (Program.generator settings population) forest))
      (watch.leftOutAt settings (Event.blocks ancestors) forest ++
        entriesBelow watch settings ancestors forest) := by
  have inner := nodes.generateForest passed
  rw [deeper] at inner
  cases forest with
  | nil => exact Records.OfSubEvents.none
  | cons head tail =>
      rw [deeper]
      exact Records.OfSubEvents.some inner

theorem generateNode {event : Event Kind.Builtin} {subEvents : List (Node Kind.Builtin)}
    (nodes : RecordsNodes watch settings population (event :: ancestors) subEvents)
    (passed : ancestors.all Event.generatesSubEvents = true) :
    Records (Event.blocks ancestors)
      (Node.generate (watcher watch settings population) ⟨event, subEvents⟩)
      (Node.generate (Program.generator settings population) ⟨event, subEvents⟩)
      ((if event.generatesSubEvents then
          watch.leftOutAt settings (Event.blocks (event :: ancestors)) subEvents else []) ++
        entriesBelow watch settings (event :: ancestors) subEvents) := by
  have blocks := Event.blocks_cons event ancestors
  have stopped (stops : event.generatesSubEvents = false) :
      (if event.generatesSubEvents then
          watch.leftOutAt settings (Event.blocks (event :: ancestors)) subEvents else []) ++
        entriesBelow watch settings (event :: ancestors) subEvents = [] := by
    rw [stops, entriesBelow, Program.reachedLineages_below_eq_nil stops]
    rfl
  rw [Node.generate, Node.generate]
  by_cases skipped : (event.disabled || !EventKind.isExecutable event.behavior) = true
  · rw [if_pos skipped, if_pos skipped, stopped (Event.not_generatesSubEvents skipped)]
    exact Records.pure ""
  · rw [if_neg skipped, if_neg skipped]
    rcases event with ⟨id, behavior, disabled, folded, remembered⟩
    cases disabled with
    | true => exact absurd rfl skipped
    | false =>
        cases behavior with
        | standard standard =>
            exact (nodes.ofSubEvents passed blocks).generate
              [standard.conditions] [standard.actions]
        | branch branch =>
            rw [stopped rfl]
            exact Records.generateBranch branch
        | repetition repetition =>
            cases uncounted : repetition.count.isEmpty with
            | true =>
                rw [stopped (congrArg (!·) uncounted)]
                exact Records.generateUncounted repetition uncounted
            | false =>
                have passes : Event.generatesSubEvents
                    ⟨id, .repetition repetition, false, folded, remembered⟩ = true :=
                  congrArg (!·) uncounted
                have passedAll := Bool.and_eq_true_iff.mpr ⟨passes, passed⟩
                rw [if_pos passes]
                exact (nodes.ofSubEvents passedAll blocks).generateRepetition repetition
                  uncounted
        | comment comment => exact absurd rfl skipped
        | link link => exact absurd rfl skipped

end RecordsNodes

mutual
theorem Records.generateNode : ∀ (node : Node Kind.Builtin) (ancestors : List (Event Kind.Builtin)),
    ancestors.all Event.generatesSubEvents = true →
    Records (Event.blocks ancestors) (node.generate (watcher watch settings population))
      (node.generate (Program.generator settings population))
      ((if node.event.generatesSubEvents then
          watch.leftOutAt settings (Event.blocks (node.event :: ancestors)) node.subEvents
        else []) ++ entriesBelow watch settings (node.event :: ancestors) node.subEvents)
  | ⟨event, subEvents⟩, ancestors, passed =>
      (Records.generateNodes subEvents (event :: ancestors)).generateNode passed

theorem Records.generateNodes : ∀ (forest : List (Node Kind.Builtin))
    (ancestors : List (Event Kind.Builtin)),
    RecordsNodes watch settings population ancestors forest
  | [], _ => fun _ _ => Records.pure ""
  | head :: tail, ancestors => by
      intro passed within
      let id := head.event.sourceId population
      have first := (Records.generateNode head ancestors passed).watchWhile (watch.asked head) id
      rw [entriesBelow, Program.reachedLineages_cons passed within, List.cons_append,
        List.flatMap_cons, List.flatMap_append, Lineage.entries, ← List.append_assoc]
      rw [← List.append_assoc] at first
      apply first.bind
      intro code
      exact (Records.generateNodes tail ancestors passed within).map fun rest =>
        (if code.isEmpty then ""
          else Program.withHooks settings.profiling.emitHooks id code) ++ rest
end

/-- Generating a forest, with what is watched for kept beside the state. -/
theorem Forest.generate_watcher (watch : Program.Watch Kind.Builtin ρ) (settings : Settings)
    (population : Population) (forest : Forest Kind.Builtin) (state : ProgramState) :
    Forest.generate (watcher watch settings population) forest { generator := (state, []) } =
      let emitted := Forest.generate (Program.generator settings population) forest
        { generator := state }
      (emitted.1, emitted.2.beside (entriesBelow watch settings [] forest)) :=
  ((Records.generateNodes forest []).generateForest rfl { generator := state } [] rfl).1

end

/-- The nodes reached among those of a forest below some events. -/
abbrev Codegen.Program.reachedBelow (settings : Settings) (ancestors : List (Event Kind.Builtin))
    (forest : List (Node Kind.Builtin)) : List (Node Kind.Builtin) :=
  Lineage.allReached settings.limits.maxNestingDepth.toNat (Forest.lineages ancestors forest)

theorem Codegen.Program.entriesBelow_askedNodes (settings : Settings)
    (ancestors : List (Event Kind.Builtin)) (forest : List (Node Kind.Builtin)) :
    askedNodes.entriesBelow settings ancestors forest = reachedBelow settings ancestors forest := by
  have alone : Lineage.entries askedNodes settings = fun lineage => [lineage.node] := by
    funext lineage
    simp [Lineage.entries, Watch.leftOutAt, askedNodes]
  rw [Watch.entriesBelow, alone, ← List.map_eq_flatMap]
  rfl

/-- Generating a forest, with the nodes reached kept beside the state. -/
theorem Forest.generate_recorder (settings : Settings) (population : Population)
    (forest : Forest Kind.Builtin) (state : ProgramState) :
    Forest.generate (Program.recorder settings population) forest { generator := (state, []) } =
      let emitted := Forest.generate (Program.generator settings population) forest
        { generator := state }
      (emitted.1, emitted.2.beside (Program.reachedBelow settings [] forest)) := by
  rw [Program.recorder_eq, Forest.generate_watcher, Program.entriesBelow_askedNodes]

/-- The nodes asked for their code while a forest is generated, in order. -/
def Codegen.Program.calls (settings : Settings) (population : Population)
    (forest : Forest Kind.Builtin) (state : ProgramState) : List (Node Kind.Builtin) :=
  (Forest.generate (Program.recorder settings population) forest
    { generator := (state, []) }).2.generator.2

theorem Codegen.Program.calls_eq (settings : Settings) (population : Population)
    (forest : Forest Kind.Builtin) (state : ProgramState) :
    calls settings population forest state = reachedBelow settings [] forest := by
  rw [calls, Forest.generate_recorder]
  rfl

/-- The nodes asked for their code are, in pre-order, those for which the events around them all
generate their sub-events and, every repetition among them counted twice, are at most as many as
the limit. So none is nested deeper than the limit, and without repetitions none that is not
deeper is left out. -/
theorem Forest.generate_reaches (settings : Settings) (population : Population)
    (forest : Forest Kind.Builtin) (state : ProgramState) :
    Program.calls settings population forest state =
        ((Forest.lineages [] forest).filter fun lineage =>
          lineage.ancestors.all Event.generatesSubEvents &&
            decide (lineage.ancestors.length + lineage.ancestors.countP Event.isRepetition ≤
              settings.limits.maxNestingDepth.toNat)).map Lineage.node ∧
      (Forest.generate (Program.recorder settings population) forest
          { generator := (state, []) }).1 =
        (Forest.generate (Program.generator settings population) forest
          { generator := state }).1 ∧
      (∀ node ∈ Program.calls settings population forest state,
        ∃ lineage ∈ Forest.lineages [] forest, lineage.node = node ∧
          lineage.ancestors.length ≤ settings.limits.maxNestingDepth.toNat) ∧
      ∀ lineage ∈ Forest.lineages [] forest,
        lineage.ancestors.all Event.generatesSubEvents = true →
        lineage.ancestors.any Event.isRepetition = false →
        lineage.ancestors.length ≤ settings.limits.maxNestingDepth.toNat →
        lineage.node ∈ Program.calls settings population forest state := by
  have calls := Program.calls_eq settings population forest state
  refine ⟨calls, ?_, ?_, ?_⟩
  · rw [Forest.generate_recorder]
  · intro node isCalled
    rw [calls] at isCalled
    rcases List.mem_map.mp isCalled with ⟨lineage, isReached, same⟩
    rcases List.mem_filter.mp isReached with ⟨isLineage, holds⟩
    rw [Lineage.reached, Bool.and_eq_true, decide_eq_true_eq, Event.blocks] at holds
    exact ⟨lineage, isLineage, same, Nat.le_trans (Nat.le_add_right _ _) holds.2⟩
  · intro lineage isLineage passed unrepeated within
    have noRepetition : lineage.ancestors.countP Event.isRepetition = 0 := by
      rw [List.countP_eq_zero]
      exact List.any_eq_false.mp unrepeated
    have isReached : lineage.reached settings.limits.maxNestingDepth.toNat = true := by
      rw [Lineage.reached, passed, Event.blocks, noRepetition, Nat.add_zero,
        decide_eq_true within, Bool.and_self]
    rw [calls]
    exact List.mem_map.mpr ⟨lineage, List.mem_filter.mpr ⟨isLineage, isReached⟩, rfl⟩

/-- A repetition of one step. -/
def repeatedStep : Forest Kind.Builtin :=
  [{ event := { id := 1, behavior := .repetition { count := ⟨"2"⟩ } }
     subEvents :=
       [{ event := { id := 2, behavior := .standard { actions := [{ name := "step" }] } } }] }]

/-- With a limit of one level the step is left out, though it is nested in one event only. -/
theorem repeatedStep_unreached :
    ¬ ∀ lineage ∈ Forest.lineages [] repeatedStep,
      lineage.ancestors.all Event.generatesSubEvents = true → lineage.ancestors.length ≤ 1 →
      lineage.node.id ∈
        (Program.calls { limits := { maxNestingDepth := 1 } } {} repeatedStep {}).map Node.id := by
  intro reaches
  rw [Program.calls_eq] at reaches
  revert reaches
  decide

end EventSheet
