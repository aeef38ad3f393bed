import EventSheet.Proofs.Compilation.Silence
import EventSheet.Proofs.Snapshot.SavedText
namespace EventSheet

/-! # What compiling depends on

Without hooks, compiling depends on what is saved of a forest. Who its nodes are, what their
samples are and which nodes they remember decide only which event a problem is put down to. -/

open Codegen
open Kind (Builtin)

/-! ## Saved state -/

/-- Both events are of one behavior, and disabled together. -/
def Event.SameState {β : Type} (event other : Event β) : Prop :=
  other.behavior = event.behavior ∧ other.disabled = event.disabled

theorem Event.faithful_sameState {β : Type} : Faithful (SameState (β := β)) :=
  fun _ _ same => same

/-- Alike forests are of one shape, node by node in the same state. -/
theorem Forest.thins_of_alike {β : Type} : ∀ {left right : List (Node β)}, Alike left right →
    ThinsTo (fun _ => False) Event.SameState left right
  | [], [], _ => .nil
  | ⟨_, _⟩ :: _, ⟨_, _⟩ :: _, ⟨⟨behavior, disabled, _, inside⟩, behind⟩ =>
      .keep ⟨behavior.symm, disabled.symm⟩ (thins_of_alike inside) (thins_of_alike behind)

/-- Copies of forests with one snapshot are of one shape. -/
theorem Forest.thins_copies_of_snapshot_eq {forest other : Forest Builtin}
    (same : snapshot other = snapshot forest) (population populationOther : Population) :
    ThinsTo (fun _ => False) Event.SameState (cloneRemembering forest population).1
      (cloneRemembering other populationOther).1 := by
  apply (thins_of_alike (alike_of_snapshot_eq Registry.builtin_create same.symm)).copy
  · exact fun _ _ none => none.elim
  · rintro event other copied copiedOther ⟨behavior, disabled⟩ isCopy isCopyOther
    have kept := Event.faithful_isCopyOf _ _ isCopy
    have keptOther := Event.faithful_isCopyOf _ _ isCopyOther
    exact ⟨by rw [keptOther.1, behavior, kept.1], by rw [keptOther.2, disabled, kept.2]⟩

/-- Two contexts with the same budget for links, as much of it spent, and the same sheets as far
as they are saved. -/
structure PreprocessContext.SharesState (context other : PreprocessContext Builtin) : Prop where
  expansions : other.linkExpansions = context.linkExpansions
  limit : other.maxLinkExpansions = context.maxLinkExpansions
  sheets : ∀ target, (other.external? target).map Forest.snapshot =
    (context.external? target).map Forest.snapshot

theorem PreprocessContext.SharesState.goesAlong {context other : PreprocessContext Builtin}
    (shares : context.SharesState other) :
    GoesAlong (fun _ => False) Event.SameState context other := by
  refine ⟨shares.expansions, shares.limit, fun target => ?_⟩
  have sheets := shares.sheets target
  cases known : context.external? target with
  | none =>
      rw [known] at sheets
      rw [Option.map_eq_none_iff.mp sheets]
      exact .none
  | some sheet =>
      rw [known] at sheets
      rcases Option.map_eq_some_iff.mp sheets with ⟨sheetOther, knownOther, same⟩
      rw [knownOther]
      exact .some (Forest.thins_copies_of_snapshot_eq same)

/-! ## Problems of no event -/

/-- The problem, whichever event it is about. -/
def Diagnostic.unplaced (diagnostic : Diagnostic) : Diagnostic := { diagnostic with node := none }

theorem Diagnostic.map_unplaced_allAttributed (current : Option NodeId)
    (reports : List Diagnostic) :
    (allAttributed current reports).map unplaced = reports.map unplaced := by
  rw [allAttributed, List.map_map]
  rfl

theorem Diagnostic.map_unplaced_flatMap {α : Type} {found reports : α → List Diagnostic}
    (same : ∀ item, (found item).map unplaced = (reports item).map unplaced) (items : List α) :
    (items.flatMap found).map unplaced = items.flatMap fun item => (reports item).map unplaced := by
  rw [List.map_flatMap]
  exact List.flatMap_congr fun item _ => same item

section

variable {settings : Settings} {Stands : Event Builtin → Event Builtin → Prop}

/-- What is left out of forests of one shape is as much. -/
theorem Forest.ThinsTo.leftOut_eq {forest other : Forest Builtin}
    (thins : ThinsTo (fun _ => False) Stands forest other) (depth : Nat) :
    Program.leftOut settings depth other = Program.leftOut settings depth forest := by
  have count := thins.count_eq
  cases thins with
  | nil => rfl
  | drop mayGo _ => exact mayGo.elim
  | keep _ _ _ =>
      rw [Program.leftOut, Program.leftOut, count]
      rfl

/-- Nodes in the same state with sub-events of one shape have the same problems. -/
theorem Lineage.Echoes.reports_eq {lineage other : Lineage Builtin}
    (echoes : Echoes (fun _ => False) Event.SameState lineage other) :
    other.reports settings = lineage.reports settings := by
  rcases echoes.event with ⟨behavior, disabled⟩
  rw [Lineage.reports, Lineage.reports, Event.reports_congr behavior disabled,
    Event.generatesSubEvents_congr behavior disabled, Event.blocks_congr behavior echoes.blocks,
    echoes.below.leftOut_eq]

end

/-! ## Compilations -/

/-- Whoever else exists, compiling either forest in its context ends, with the same source, and with
problems that differ at most in the events they are about. -/
def CompilesAlike (settings : Settings) (context : PreprocessContext Builtin)
    (forest : Forest Builtin) (contextOther : PreprocessContext Builtin)
    (other : Forest Builtin) : Prop :=
  ∀ population populationOther, ∃ code codeOther raised raisedOther,
    Compiles settings context forest population code ∧
    Compiles settings contextOther other populationOther codeOther ∧
    codeOther.source = code.source ∧
    code.diagnostics = context.diagnostics ++ raised ∧
    codeOther.diagnostics = contextOther.diagnostics ++ raisedOther ∧
    raisedOther.map Diagnostic.unplaced = raised.map Diagnostic.unplaced

section

variable {settings : Settings} {context contextOther : PreprocessContext Builtin}
  {forest other : Forest Builtin}

theorem compilesAlike_of_snapshot_eq (unhooked : settings.profiling.emitHooks = false)
    (shares : context.SharesState contextOther)
    (same : Forest.snapshot other = Forest.snapshot forest) :
    CompilesAlike settings context forest contextOther other := by
  intro population populationOther
  have kept (node : Node Builtin) (gone : False) : node.IsSilent := gone.elim
  rcases exists_compilingPass context forest population with ⟨calls, working, state, pass, -⟩
  rcases pass.follow Event.faithful_sameState kept
      (Forest.thins_copies_of_snapshot_eq same population populationOther) shares.goesAlong with
    ⟨callsOther, workingOther, stateOther, passOther, left, echoes⟩
  have found := pass.diagnostics_loud settings
  have foundOther := passOther.diagnostics_loud settings
  rw [List.append_assoc] at found foundOther
  refine ⟨_, _, _, _, pass.compiles settings, passOther.compiles settings, ?_, found, foundOther,
    ?_⟩
  · apply left.source_eq Event.faithful_sameState fun node gone => (kept node gone).event
    intro _ _ _ hooked
    rw [unhooked] at hooked
    cases hooked
  · have reached : List.Forall₂ _
        ((Program.reachedLineages settings [] working).filter Lineage.isLoud)
        ((Program.reachedLineages settings [] workingOther).filter Lineage.isLoud) :=
      left.reachedLineages Event.faithful_sameState (fun node gone => (kept node gone).event)
        [] [] rfl rfl
    have ofCall (call : Preprocess.Call Builtin (PassState Builtin)) :
        call.problems.map Diagnostic.unplaced = call.reports.map Diagnostic.unplaced :=
      Diagnostic.map_unplaced_allAttributed _ _
    have ofNode (population : Population) (lineage : Lineage Builtin) :
        (lineage.problems settings population).map Diagnostic.unplaced =
          (lineage.reports settings).map Diagnostic.unplaced :=
      Diagnostic.map_unplaced_allAttributed _ _
    rw [List.map_append, List.map_append, Diagnostic.map_unplaced_flatMap ofCall,
      Diagnostic.map_unplaced_flatMap ofCall, Diagnostic.map_unplaced_flatMap (ofNode _),
      Diagnostic.map_unplaced_flatMap (ofNode _)]
    congr 1
    · exact flatMap_eq_of_forall₂ (fun call other echo => by rw [echo.reports]) echoes
    · exact flatMap_eq_of_forall₂ (fun lineage other echo => by rw [echo.reports_eq]) reached

/-- Without hooks, compiling depends on persisted state only. Forests with one snapshot, in contexts
with the same budget and the same snapshots of sheets, compile to the same source and to the same
problems in the same order, whoever their nodes are and whoever these remember. So the clones of a
forest, its copies that remember it, what is restored from its snapshot and what is loaded from its
saved text all compile like the forest. -/
theorem compileEvents_of_saved_state (unhooked : settings.profiling.emitHooks = false)
    (shares : context.SharesState contextOther) (forest : Forest Builtin) :
    (∀ other, Forest.snapshot other = Forest.snapshot forest →
        CompilesAlike settings context forest contextOther other) ∧
      ∀ population,
        CompilesAlike settings context forest contextOther (Forest.clone forest population).1 ∧
        CompilesAlike settings context forest contextOther
          (Forest.cloneRemembering forest population).1 ∧
        (Forest.Owned forest →
          (∃ restored after,
            (Forest.snapshot forest).restore (Registry.builtin id) population =
              (.ok restored, after) ∧
            CompilesAlike settings context forest contextOther restored) ∧
          ((∀ visit ∈ Forest.walk forest, visit.2 < UInt64.size) → Forest.PayloadsFit forest →
            ∃ loaded after,
              Forest.loadJson (Registry.builtin id) (Forest.saveJson forest) population =
                (.ok loaded, after) ∧
              CompilesAlike settings context forest contextOther loaded)) := by
  have ofAlike {other : Forest Builtin} (alike : Forest.Alike forest other) :
      CompilesAlike settings context forest contextOther other :=
    compilesAlike_of_snapshot_eq unhooked shares alike.snapshot_eq.symm
  have alikeRemembering (population : Population) :
      Forest.Alike forest (Forest.cloneRemembering forest population).1 := by
    rw [Forest.cloneRemembering_eq_copy]
    exact Forest.alike_copy _ forest population
  refine ⟨fun other same => compilesAlike_of_snapshot_eq unhooked shares same,
    fun population => ⟨ofAlike (Forest.alike_clone forest population),
      ofAlike (alikeRemembering population), fun owned => ?_⟩⟩
  have renewed := ofAlike (Forest.alike_renew forest population)
  refine ⟨⟨_, _, Forest.restore_snapshot_eq Registry.builtin_create owned population, renewed⟩,
    fun shallow fit => ?_⟩
  have loaded := Forest.loadJson_saveJson owned shallow population
  rw [if_pos fit] at loaded
  exact ⟨_, _, loaded, renewed⟩

end

/-- The relief on another day: its guard is a copy. -/
def relievedAgain : PreprocessContext Builtin :=
  { scope := "wall"
    externals :=
      [("relief",
        [{ event :=
          { id := 40, behavior := .standard { actions := [{ name := "watch" }] }
            remembered := some 12 } }])] }

theorem sharesState_relievedAgain : relieved.SharesState relievedAgain := by
  refine ⟨rfl, rfl, fun target => ?_⟩
  simp only [PreprocessContext.external?, relieved, relievedAgain, List.lookup_cons]
  cases target == "relief" with
  | true =>
      rw [Option.map_some, Option.map_some, Forest.snapshot_eq_walk, Forest.snapshot_eq_walk]
      rfl
  | false => rfl

/-- The night watch compiles alike when it is loaded another day. -/
theorem nightWatch_compiles_from_saved_text :
    relieved.SharesState relievedAgain ∧
    ∃ loaded after,
      Forest.loadJson (Registry.builtin id) (Forest.saveJson nightWatch)
        ⟨Array.replicate 12 {}⟩ = (.ok loaded, after) ∧
      CompilesAlike {} relieved nightWatch relievedAgain loaded := by
  have unhooked : ({} : Settings).profiling.emitHooks = false := rfl
  have compiles := compileEvents_of_saved_state unhooked sharesState_relievedAgain nightWatch
  have shallow : ∀ visit ∈ Forest.walk nightWatch, visit.2 < UInt64.size := by decide
  have fit : Forest.PayloadsFit nightWatch := by decide
  exact ⟨sharesState_relievedAgain,
    ((compiles.2 ⟨Array.replicate 12 {}⟩).2.2 owned_nightWatch).2 shallow fit⟩

end EventSheet
