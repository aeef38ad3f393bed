import EventSheet.Proofs.Traversal.Recursive
namespace EventSheet.Preprocess

/-! The traversal with its stack of frames makes exactly the calls of the
recursive pass, and ends with the same forest and state. -/

variable {β σ : Type}

/-! ## Single steps -/

section

variable (visitor : Visitor β σ) {done rest inserted nodes : Forest β} {node : Node β}
  {behavior : β} {splice : Splice β} (enclosing : List (Frame β)) {state visited : σ}

theorem step_skip (disabled : node.event.disabled = true) :
    step visitor ⟨done, node :: rest⟩ enclosing state =
      (.onward ⟨node :: done, rest⟩ enclosing, state) := by
  simp only [step, disabled, if_true]
  rfl

theorem step_stay (enabled : node.event.disabled = false)
    (visit : visitor.visit node.event ⟨done, rest⟩ state = ((behavior, splice), visited))
    (stays : splice.inserted? = some inserted) :
    step visitor ⟨done, node :: rest⟩ enclosing state =
      (descend done (node.setBehavior behavior) (inserted ++ rest) enclosing, visited) := by
  simp only [step, enabled, Bool.false_eq_true, if_false, bind, StateT.bind, visit]
  cases splice with
  | keep =>
      cases stays
      rfl
  | insertAfter _ =>
      cases stays
      rfl
  | remove => cases stays
  | replace _ => cases stays

theorem step_go (enabled : node.event.disabled = false)
    (visit : visitor.visit node.event ⟨done, rest⟩ state = ((behavior, splice), visited))
    (goes : splice.replacement? = some nodes) :
    step visitor ⟨done, node :: rest⟩ enclosing state =
      (.visited ⟨done, nodes ++ rest⟩ enclosing,
        (visitor.discard (node.setBehavior behavior) visited).2) := by
  simp only [step, enabled, Bool.false_eq_true, if_false, bind, StateT.bind, visit]
  cases splice with
  | keep => cases goes
  | insertAfter _ => cases goes
  | remove =>
      cases goes
      rfl
  | replace _ =>
      cases goes
      rfl

end

/-! ## Recording the calls -/

/-- The visitor with a record of its calls, oldest first, kept beside its state. -/
def Visitor.recording (visitor : Visitor β σ) : Visitor β (σ × List (Call β σ)) where
  visit event siblings := fun (state, calls) =>
    let (outcome, after) := visitor.visit event siblings state
    (outcome, (after, calls ++ [⟨event, siblings.position, siblings, state, outcome.2⟩]))
  discard node := fun (state, calls) => ((), ((visitor.discard node state).2, calls))

theorem visit_recording {visitor : Visitor β σ} {event : Event β} {siblings : Siblings β}
    {behavior : β} {splice : Splice β} {state visited : σ}
    (visit : visitor.visit event siblings state = ((behavior, splice), visited))
    (calls : List (Call β σ)) :
    visitor.recording.visit event siblings (state, calls) =
      ((behavior, splice),
        (visited, calls ++ [⟨event, siblings.position, siblings, state, splice⟩])) := by
  simp only [Visitor.recording, visit]

/-- Recording changes nothing but the record. -/
theorem step_recording (visitor : Visitor β σ) (frame : Frame β) (enclosing : List (Frame β))
    (state : σ) (calls : List (Call β σ)) :
    ∃ recorded, step visitor.recording frame enclosing (state, calls) =
      ((step visitor frame enclosing state).1,
        ((step visitor frame enclosing state).2, recorded)) := by
  rcases frame with ⟨done, ahead⟩
  cases ahead with
  | nil => cases enclosing <;> exact ⟨calls, rfl⟩
  | cons node rest =>
      cases disabled : node.event.disabled with
      | true =>
          rw [step_skip _ _ disabled, step_skip _ _ disabled]
          exact ⟨calls, rfl⟩
      | false =>
          rcases visit : visitor.visit node.event ⟨done, rest⟩ state with
            ⟨⟨behavior, splice⟩, visited⟩
          have recordedVisit := visit_recording visit calls
          rcases splice.stays_or_goes with ⟨inserted, stays⟩ | ⟨nodes, goes⟩
          · rw [step_stay _ _ disabled recordedVisit stays, step_stay _ _ disabled visit stays]
            exact ⟨_, rfl⟩
          · rw [step_go _ _ disabled recordedVisit goes, step_go _ _ disabled visit goes]
            exact ⟨_, rfl⟩

/-- A recorded run is the run of the visitor itself, with the record beside it. -/
theorem run_recording (visitor : Visitor β σ) (fuel : Nat) (frame : Frame β)
    (enclosing : List (Frame β)) (visits : Nat) (state : σ) (calls : List (Call β σ)) :
    (run visitor.recording fuel frame enclosing visits (state, calls)).map
        (fun (answer, after, _) => (answer, after)) =
      run visitor fuel frame enclosing visits state := by
  induction fuel generalizing frame enclosing visits state calls with
  | zero => rfl
  | succ fuel induction =>
      rcases step_recording visitor frame enclosing state calls with ⟨recorded, same⟩
      rw [run, run, same]
      rcases step visitor frame enclosing state with ⟨move, after⟩
      cases move with
      | finished forest => rfl
      | onward next outer => exact induction next outer visits after recorded
      | visited next outer => exact induction next outer (visits + 1) after recorded

/-! ## The pass refines the recursion -/

/-- The frame of a forest walked up to a cursor. -/
def Frame.at (forest : Forest β) (cursor : Nat) : Frame β :=
  ⟨(forest.take cursor).reverse, forest.drop cursor⟩

/-- A forest walked to its end. -/
def Frame.walked (forest : Forest β) : Frame β := ⟨forest.reverse, []⟩

theorem Frame.at_of_passed {forest : Forest β} {cursor : Nat}
    (passed : forest.length ≤ cursor) : Frame.at forest cursor = .walked forest := by
  rw [Frame.at, Frame.walked, List.take_of_length_le passed, List.drop_of_length_le passed]

/-- Where a traversal stands: its frames, innermost first, and its state. -/
structure Situation (β σ : Type) where
  frame : Frame β
  enclosing : List (Frame β)
  state : σ

/-- The rest of a run from a situation on. -/
def Situation.run (visitor : Visitor β σ) (fuel : Nat) (situation : Situation β σ)
    (visits : Nat) : Option ((Forest β × Nat) × σ) :=
  Preprocess.run visitor fuel situation.frame situation.enclosing visits situation.state

/-- Some number of steps takes the traversal from one situation to another, with a
number of visits on the way. -/
def Leads (visitor : Visitor β σ) (start : Situation β σ) (visits : Nat)
    (goal : Situation β σ) : Prop :=
  ∃ steps, ∀ fuel earlier,
    start.run visitor (steps + fuel) earlier = goal.run visitor fuel (earlier + visits)

namespace Leads

variable {visitor : Visitor β σ} {start middle goal : Situation β σ}

theorem refl (situation : Situation β σ) : Leads visitor situation 0 situation :=
  ⟨0, fun fuel earlier => by rw [Nat.zero_add, Nat.add_zero]⟩

theorem trans {first second : Nat} (before : Leads visitor start first middle)
    (behind : Leads visitor middle second goal) :
    Leads visitor start (first + second) goal := by
  rcases before with ⟨firstSteps, before⟩
  rcases behind with ⟨secondSteps, behind⟩
  refine ⟨firstSteps + secondSteps, fun fuel earlier => ?_⟩
  rw [Nat.add_assoc, before, behind, Nat.add_assoc]

variable {frame next : Frame β} {enclosing outer : List (Frame β)} {state after : σ}

theorem of_onward
    (step : step visitor frame enclosing state = (.onward next outer, after)) :
    Leads visitor ⟨frame, enclosing, state⟩ 0 ⟨next, outer, after⟩ := by
  refine ⟨1, fun fuel earlier => ?_⟩
  rw [Nat.add_comm, Situation.run, run, step]
  rfl

theorem of_visited
    (step : step visitor frame enclosing state = (.visited next outer, after)) :
    Leads visitor ⟨frame, enclosing, state⟩ 1 ⟨next, outer, after⟩ := by
  refine ⟨1, fun fuel earlier => ?_⟩
  rw [Nat.add_comm, Situation.run, run, step]
  rfl

end Leads

section

variable {visitor : Visitor β σ} {forest : Forest β} {cursor : Nat} {node : Node β}
  (found : forest[cursor]? = some node)

include found

theorem Frame.at_of_found :
    Frame.at forest cursor =
      ⟨(forest.take cursor).reverse, node :: forest.drop (cursor + 1)⟩ := by
  rw [Frame.at, Forest.drop_of_found found]

theorem Frame.at_succ_of_found :
    Frame.at forest (cursor + 1) =
      ⟨node :: (forest.take cursor).reverse, forest.drop (cursor + 1)⟩ := by
  rw [Frame.at, Forest.take_succ_of_found found, List.reverse_append]
  rfl

theorem Frame.at_splice (nodes : Forest β) :
    Frame.at (forest.splice cursor nodes) cursor =
      ⟨(forest.take cursor).reverse, nodes ++ forest.drop (cursor + 1)⟩ := by
  rw [Frame.at, Forest.take_splice found, Forest.drop_splice found]

theorem Frame.at_splice_cons (head : Node β) (nodes : Forest β) :
    Frame.at (forest.splice cursor (head :: nodes)) (cursor + 1) =
      ⟨head :: (forest.take cursor).reverse, nodes ++ forest.drop (cursor + 1)⟩ := by
  rw [Frame.at, Forest.take_splice_cons found, Forest.drop_splice_cons found,
    List.reverse_append]
  rfl

end

theorem Frame.forest_walked (forest : Forest β) : (Frame.walked forest).forest = forest := by
  rw [Frame.forest, Frame.walked, List.reverse_reverse, List.append_nil]

theorem step_finish (visitor : Visitor β σ) (forest : Forest β) (state : σ) :
    step visitor (.walked forest) [] state = (.finished forest, state) := by
  change (Move.finished (Frame.walked forest).forest, state) = _
  rw [Frame.forest_walked]

theorem step_close (visitor : Visitor β σ) (subEvents done rest : Forest β)
    (owner : Node β) (outer : List (Frame β)) (state : σ) :
    step visitor (.walked subEvents) (⟨done, owner :: rest⟩ :: outer) state =
      (.onward ⟨{ owner with subEvents } :: done, rest⟩ outer, state) := by
  change (Move.onward (Frame.close _ (Frame.walked subEvents).forest) outer, state) = _
  rw [Frame.forest_walked]
  rfl

/-! One step of the recursion, as the traversal takes it. -/

section

variable {visitor : Visitor β σ} {forest inserted nodes : Forest β} {cursor : Nat}
  {node : Node β} {behavior : β} {splice : Splice β} {state visited : σ}
  (enclosing : List (Frame β)) (found : forest[cursor]? = some node)

include found

theorem Leads.of_skip (disabled : node.event.disabled = true) :
    Leads visitor ⟨.at forest cursor, enclosing, state⟩ 0
      ⟨.at forest (cursor + 1), enclosing, state⟩ := by
  rw [Frame.at_of_found found, Frame.at_succ_of_found found]
  exact Leads.of_onward (step_skip visitor enclosing disabled)

variable (enabled : node.event.disabled = false)
  (visit : visitor.visit node.event (.around forest cursor) state =
    ((behavior, splice), visited))

include enabled visit

theorem Leads.of_go (goes : splice.replacement? = some nodes) :
    Leads visitor ⟨.at forest cursor, enclosing, state⟩ 1
      ⟨.at (forest.splice cursor nodes) cursor, enclosing,
        (visitor.discard (node.setBehavior behavior) visited).2⟩ := by
  rw [Frame.at_of_found found, Frame.at_splice found]
  exact Leads.of_visited (step_go visitor enclosing enabled visit goes)

/-- The detour below a node that stays: a pass over its sub-events, if it has any,
and back to it. -/
theorem Leads.of_stay {subEvents : Forest β} {visits : Nat} {below : σ}
    (stays : splice.inserted? = some inserted)
    (childless : node.subEvents = [] → visits = 0 ∧ subEvents = [] ∧ below = visited)
    (inside : ∀ outer, Leads visitor ⟨.at node.subEvents 0, outer, visited⟩ visits
      ⟨.walked subEvents, outer, below⟩) :
    Leads visitor ⟨.at forest cursor, enclosing, state⟩ (visits + 1)
      ⟨.at (forest.splice cursor
          ({ node.setBehavior behavior with subEvents } :: inserted)) (cursor + 1),
        enclosing, below⟩ := by
  have entered := step_stay visitor enclosing enabled visit stays
  rw [← Frame.at_of_found found] at entered
  rw [Frame.at_splice_cons found]
  by_cases empty : node.subEvents = []
  · rcases childless empty with ⟨rfl, rfl, rfl⟩
    have empty : (node.setBehavior behavior).subEvents = [] := empty
    rw [descend, if_pos (by rw [empty]; rfl)] at entered
    rw [Node.with_no_subEvents empty]
    exact Leads.of_visited entered
  · rw [descend, if_neg (by simpa using empty)] at entered
    have down := Leads.of_visited entered
    have up := Leads.of_onward (step_close visitor subEvents (forest.take cursor).reverse
      (inserted ++ forest.drop (cursor + 1))
      { node.setBehavior behavior with subEvents := [] } enclosing below)
    have detour := (down.trans (inside _)).trans up
    rwa [Nat.add_zero, Nat.add_comm] at detour

end

/-- The traversal follows a recursive pass to the end of its forest, whatever
encloses that forest and was recorded before. -/
theorem Traverses.leads {visitor : Visitor β σ} {forest result : Forest β} {cursor : Nat}
    {state after : σ} {calls : List (Call β σ)}
    (traverses : Traverses visitor forest cursor state calls result after)
    (enclosing : List (Frame β)) (recorded : List (Call β σ)) :
    Leads visitor.recording ⟨.at forest cursor, enclosing, (state, recorded)⟩ calls.length
      ⟨.walked result, enclosing, (after, recorded ++ calls)⟩ := by
  induction traverses generalizing enclosing recorded with
  | finished passed =>
      rw [Frame.at_of_passed passed, List.append_nil]
      exact Leads.refl _
  | skip found disabled onward induction =>
      have rest := induction enclosing recorded
      have path := (Leads.of_skip enclosing found disabled).trans rest
      rwa [Nat.zero_add] at path
  | @stay forest _ result inserted cursor node behavior splice state visited below after
      inner outer found enabled visit stays inside onward insideInduction onwardInduction =>
      have recordedVisit := visit_recording visit recorded
      rw [Siblings.position_around found] at recordedVisit
      have detour := Leads.of_stay enclosing found enabled recordedVisit stays
        (fun empty => by
          rw [empty] at inside
          rcases inside.of_nil with ⟨rfl, rfl, rfl⟩
          simp)
        fun outer => insideInduction outer _
      have path := detour.trans (onwardInduction enclosing _)
      have length : inner.length + 1 + outer.length =
          (⟨node.event, cursor, .around forest cursor, state, splice⟩ :: (inner ++ outer) :
            List (Call β σ)).length := by
        simp only [List.length_cons, List.length_append]
        omega
      have record : recorded ++ [⟨node.event, cursor, .around forest cursor, state, splice⟩] ++
          inner ++ outer = recorded ++
            ⟨node.event, cursor, .around forest cursor, state, splice⟩ :: (inner ++ outer) := by
        simp
      rwa [length, record] at path
  | @go forest _ nodes cursor node behavior splice state visited after calls
      found enabled visit goes onward induction =>
      have recordedVisit := visit_recording visit recorded
      rw [Siblings.position_around found] at recordedVisit
      have path :=
        (Leads.of_go enclosing found enabled recordedVisit goes).trans (induction enclosing _)
      rwa [List.append_assoc, List.singleton_append, Nat.add_comm] at path

/-- What a finished run did first was a recursive pass over the forest of its
innermost frame; a part of its fuel is left for the frames around it. -/
def BeginsWithPass (visitor : Visitor β σ) (fuel : Nat) : Prop :=
  ∀ {forest : Forest β} {cursor visits : Nat} {enclosing : List (Frame β)} {state : σ}
    {recorded : List (Call β σ)} {outcome : (Forest β × Nat) × σ × List (Call β σ)},
    run visitor.recording fuel (.at forest cursor) enclosing visits (state, recorded) =
      some outcome →
    ∃ calls result after left, left ≤ fuel ∧
      Traverses visitor forest cursor state calls result after ∧
      run visitor.recording left (.walked result) enclosing (visits + calls.length)
        (after, recorded ++ calls) = some outcome

/-- A run that stays at a node walks its sub-events first and is then behind it. -/
theorem run_descend {visitor : Visitor β σ} {fuel visits : Nat} {start : Frame β}
    {done rest : Forest β} {node : Node β} {enclosing : List (Frame β)}
    {before : σ × List (Call β σ)} {state : σ} {recorded : List (Call β σ)}
    {outcome : (Forest β × Nat) × σ × List (Call β σ)}
    (inside : BeginsWithPass visitor fuel)
    (descends : step visitor.recording start enclosing before =
      (descend done node rest enclosing, (state, recorded)))
    (ends : run visitor.recording (fuel + 1) start enclosing visits before = some outcome) :
    ∃ inner subEvents below left, left ≤ fuel ∧
      Traverses visitor node.subEvents 0 state inner subEvents below ∧
      run visitor.recording left ⟨{ node with subEvents } :: done, rest⟩ enclosing
        (visits + 1 + inner.length) (below, recorded ++ inner) = some outcome := by
  rw [run, descends] at ends
  by_cases empty : node.subEvents = []
  · rw [descend, if_pos (by simp [empty])] at ends
    refine ⟨[], [], state, fuel, Nat.le_refl _, ?_, ?_⟩
    · rw [empty]
      exact .finished (Nat.zero_le _)
    · rwa [Node.with_no_subEvents empty, List.append_nil]
  · rw [descend, if_neg (by simpa using empty)] at ends
    have below : run visitor.recording fuel (.at node.subEvents 0) _ (visits + 1)
        (state, recorded) = some outcome := ends
    rcases inside below with ⟨inner, subEvents, below, left, bound, walks, closes⟩
    cases left with
    | zero => cases closes
    | succ left =>
        rw [run, step_close] at closes
        exact ⟨inner, subEvents, below, left, Nat.le_of_succ_le bound, walks, closes⟩

theorem beginsWithPass (visitor : Visitor β σ) (fuel : Nat) : BeginsWithPass visitor fuel := by
  induction fuel using Nat.strongRecOn with
  | ind fuel induction =>
    intro forest cursor visits enclosing state recorded outcome ends
    cases fuel with
    | zero => cases ends
    | succ fuel =>
      cases found : forest[cursor]? with
      | none =>
          have passed : forest.length ≤ cursor := List.getElem?_eq_none_iff.mp found
          refine ⟨[], forest, state, fuel + 1, Nat.le_refl _, .finished passed, ?_⟩
          rwa [Frame.at_of_passed passed, ← List.append_nil recorded] at ends
      | some node =>
          rw [Frame.at_of_found found] at ends
          cases disabled : node.event.disabled with
          | true =>
              rw [run, step_skip _ _ disabled] at ends
              rw [← Frame.at_succ_of_found found] at ends
              rcases induction fuel (Nat.lt_succ_self _) ends with
                ⟨calls, result, after, left, bound, onward, rest⟩
              exact ⟨calls, result, after, left, by omega, .skip found disabled onward, rest⟩
          | false =>
              rcases visit : visitor.visit node.event (.around forest cursor) state with
                ⟨⟨behavior, splice⟩, visited⟩
              have recordedVisit := visit_recording visit recorded
              rw [Siblings.position_around found] at recordedVisit
              rcases splice.stays_or_goes with ⟨inserted, stays⟩ | ⟨nodes, goes⟩
              · rcases run_descend (induction fuel (Nat.lt_succ_self _))
                    (step_stay _ _ disabled recordedVisit stays) ends with
                  ⟨inner, subEvents, below, left, bound, inside, resumed⟩
                rw [← Frame.at_splice_cons found] at resumed
                rcases induction left (by omega) resumed with
                  ⟨outer, result, after, last, lastBound, onward, rest⟩
                refine ⟨_, result, after, last, by omega,
                  .stay found disabled visit stays inside onward, ?_⟩
                have total : visits + ((inner ++ outer).length + 1) =
                    visits + 1 + inner.length + outer.length := by
                  rw [List.length_append]
                  omega
                rw [List.length_cons, total]
                simpa using rest
              · rw [run, step_go _ _ disabled recordedVisit goes] at ends
                rw [← Frame.at_splice found] at ends
                rcases induction fuel (Nat.lt_succ_self _) ends with
                  ⟨calls, result, after, left, bound, onward, rest⟩
                refine ⟨_, result, after, left, by omega,
                  .go found disabled visit goes onward, ?_⟩
                rw [List.length_cons, Nat.add_comm calls.length, ← Nat.add_assoc]
                simpa using rest

/-- A recursive pass is what the traversal does, given steps enough. -/
theorem Traverses.run_eq {visitor : Visitor β σ} {forest result : Forest β} {cursor : Nat}
    {state after : σ} {calls : List (Call β σ)}
    (traverses : Traverses visitor forest cursor state calls result after) :
    ∃ steps, ∀ fuel, run visitor.recording (steps + (fuel + 1)) (.at forest cursor) [] 0
      (state, []) = some ((result, calls.length), (after, calls)) := by
  rcases traverses.leads [] [] with ⟨steps, leads⟩
  refine ⟨steps, fun fuel => ?_⟩
  have path := leads (fuel + 1) 0
  rwa [Situation.run, Situation.run, run, step_finish, Nat.zero_add, List.nil_append] at path

/-- A visitor leaves one way through a forest. -/
theorem Traverses.unique {visitor : Visitor β σ} {forest result result' : Forest β}
    {cursor : Nat} {state after after' : σ} {calls calls' : List (Call β σ)}
    (first : Traverses visitor forest cursor state calls result after)
    (second : Traverses visitor forest cursor state calls' result' after') :
    calls = calls' ∧ result = result' ∧ after = after' := by
  rcases first.run_eq with ⟨steps, ends⟩
  rcases second.run_eq with ⟨steps', ends'⟩
  have same := ends steps'
  rw [Nat.add_left_comm, ends' steps] at same
  simp only [Option.some.injEq, Prod.mk.injEq] at same
  rcases same with ⟨⟨results, _⟩, afters, records⟩
  exact ⟨records.symm, results.symm, afters.symm⟩

/-- A recorded traversal ends exactly as the recursive pass does. -/
theorem run_recording_iff {visitor : Visitor β σ} {forest result : Forest β} {count : Nat}
    {state after : σ} {calls : List (Call β σ)} :
    (∃ fuel, run visitor.recording fuel { ahead := forest } [] 0 (state, []) =
        some ((result, count), (after, calls))) ↔
      Traverses visitor forest 0 state calls result after ∧ count = calls.length := by
  constructor
  · rintro ⟨fuel, ends⟩
    have walk : run visitor.recording fuel (.at forest 0) [] 0 (state, []) = _ := ends
    rcases beginsWithPass visitor fuel walk with ⟨made, final, last, left, _, traverses, rest⟩
    cases left with
    | zero => cases rest
    | succ left =>
        rw [run, step_finish] at rest
        simp only [Nat.zero_add, List.nil_append, Option.some.injEq, Prod.mk.injEq] at rest
        rcases rest with ⟨⟨rfl, rfl⟩, rfl, rfl⟩
        exact ⟨traverses, rfl⟩
  · rintro ⟨traverses, rfl⟩
    rcases traverses.run_eq with ⟨steps, ends⟩
    exact ⟨_, ends 0⟩

end EventSheet.Preprocess

namespace EventSheet

open Preprocess

variable {β : Type} [Behavior β]

/-- The pass with a record of the events it asked, oldest first. -/
def Forest.preprocessRecorded (fuel : Nat) (forest : Forest β) (state : PassState β) :
    Option ((Forest β × Nat) × PassState β × List (Call β (PassState β))) :=
  run Pass.visitor.recording fuel { ahead := forest } [] 0 (state, [])

theorem Forest.preprocess_eq_recorded (forest : Forest β) (fuel : Nat) (state : PassState β) :
    forest.preprocess fuel state =
      (forest.preprocessRecorded fuel state).map fun (answer, after, _) => (answer, after) :=
  (run_recording Pass.visitor fuel { ahead := forest } [] 0 state []).symm

theorem Forest.traverses_of_recorded {forest result : Forest β} {fuel count : Nat}
    {state after : PassState β} {calls : List (Call β (PassState β))}
    (ends : forest.preprocessRecorded fuel state = some ((result, count), (after, calls))) :
    Traverses Pass.visitor forest 0 state calls result after :=
  (run_recording_iff.mp ⟨fuel, ends⟩).1

/-- Preprocessing a forest is the recursive pass over it: it ends exactly when that
does, with its forest, state and calls, and counts those calls. The events asked are
those of the final forest that are enabled and outside disabled sub-trees, one after
the other, and in between those that were spliced out. -/
theorem Forest.preprocess_iff_traverses (forest : Forest β) (state : PassState β) :
    (∀ fuel, forest.preprocess fuel state =
      (forest.preprocessRecorded fuel state).map fun (answer, after, _) => (answer, after)) ∧
    (∀ result count after calls,
      (∃ fuel, forest.preprocessRecorded fuel state = some ((result, count), (after, calls))) ↔
        Traverses Pass.visitor forest 0 state calls result after ∧ count = calls.length) ∧
    (∀ result after calls, Traverses Pass.visitor forest 0 state calls result after →
      (calls.filter Call.stays).map (fun call => call.event.id) = Forest.enabledIds result ∧
      ∀ result' after' calls', Traverses Pass.visitor forest 0 state calls' result' after' →
        calls = calls' ∧ result = result' ∧ after = after') ∧
    ∀ (siblings : Forest β) (cursor position : Nat),
      (Siblings.around siblings cursor).get? position =
        if position = cursor then none else siblings[position]? := by
  refine ⟨fun fuel => ?_, fun result count after calls => ?_,
    fun result after calls traverses => ?_, Siblings.get?_around⟩
  · exact (run_recording Pass.visitor fuel _ _ _ _ _).symm
  · exact run_recording_iff
  · have ids := traverses.enabledIds_eq.2
    rw [List.drop_zero] at ids
    exact ⟨ids, fun _ _ _ other => traverses.unique other⟩

end EventSheet
