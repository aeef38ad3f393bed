import EventSheet.Proofs.Compilation.Outcome
import EventSheet.Proofs.Lineage.Edits
namespace EventSheet.Workspace

/-! # Passes over the sheets of a workspace

The sheets that links can include are taken out of the workspace for a pass and destroyed when it
is over, whatever way that comes about. -/

variable {β : Type} {before after workspace : Workspace β} {context : PreprocessContext β}

/-! ## Registering sheets -/

/-- The sheet registered under a target takes the place of the one there was. -/
theorem bonds_withExternal (distinct : context.externals.Distinct) (target : String)
    (events : Forest β) :
    (Forest.bonds ((context.external? target).getD []) ++
        Forest.bonds (context.withExternal target events).2.sheets).Perm
      (Forest.bonds events ++ Forest.bonds context.sheets) := by
  have alone : Distinct (⟨{}, context.externals, []⟩ : Workspace β) := ⟨distinct, List.nodup_nil⟩
  have put := (moved_putSheet alone events : Moved _ _ _ (Forest.bonds
    ((context.externals.lookup target).getD [])))
  have same := put.same
  simp only [bonds, nodes, List.map_nil, List.append_nil] at same
  exact (List.perm_append_comm.trans same.symm).trans List.perm_append_comm

theorem release_change (distinct : workspace.Distinct) (context : PreprocessContext β) :
    Change [] (Forest.bonds context.sheets) workspace (Forest.bonds context.sheets)
      (release context workspace).2 [] :=
  Change.destroyForest distinct context.sheets

theorem holding_of_ok {α : Type} {action : Edit β α} {value : α}
    (runs : action before = (.ok value, after)) :
    holding context action before = (.ok value, after) := by
  rw [holding, tryCatch_of_ok runs]

theorem holding_of_error {α : Type} {action : Edit β α} {astray : Astray}
    (runs : action before = (.error astray, after)) :
    holding context action before = (.error astray, (release context after).2) := by
  rw [holding, tryCatch_of_error runs]
  rfl

/-- A context with sheets under the targets of links; a target that occurs again stands for the
later sheet. -/
def registering (context : PreprocessContext β) (targets : List String)
    (sheets : List (Forest β)) : PreprocessContext β :=
  (targets.zip sheets).foldl (fun context entry => (context.withExternal entry.1 entry.2).2)
    context

/-- The sheets that are registered leave the workspace for the context; those that were replaced
are destroyed, and all of them are when a name is unknown. -/
theorem withExternals_change : ∀ (pairs : List (String × String)) (context : PreprocessContext β)
    (workspace : Workspace β), workspace.Distinct → context.externals.Distinct →
      match Named.takeAll (pairs.map Prod.snd) workspace.sheets with
      | (sheets, some left) => ∃ population destroyed,
          withExternals context pairs workspace =
            (.ok (registering context (pairs.map Prod.fst) sheets),
              { workspace with population, sheets := left }) ∧
          (destroyed ++ Forest.bonds (registering context (pairs.map Prod.fst) sheets).sheets).Perm
            (Forest.bonds context.sheets ++ Forest.bonds sheets.flatten) ∧
          Change [] destroyed workspace (Forest.bonds context.sheets)
            { workspace with population, sheets := left }
            (Forest.bonds (registering context (pairs.map Prod.fst) sheets).sheets)
      | (sheets, none) => ∃ astray after, withExternals context pairs workspace =
            (.error astray, after) ∧
          Change [] (Forest.bonds context.sheets ++ Forest.bonds sheets.flatten) workspace
            (Forest.bonds context.sheets) after [] := by
  intro pairs
  induction pairs with
  | nil =>
      intro context workspace distinct _
      refine ⟨workspace.population, [], rfl, ?_, Change.refl distinct _⟩
      rw [List.flatten_nil, Forest.bonds_nil, List.append_nil]
      exact List.Perm.refl _
  | cons pair rest induction =>
      intro context workspace distinct targets
      rcases pair with ⟨target, name⟩
      rw [List.map_cons, Named.takeAll, withExternals]
      cases found : workspace.sheets.lookup name with
      | none =>
          refine ⟨_, _, bind_of_error (holding_of_error (takeSheet_of_unknown found)), ?_⟩
          rw [List.flatten_nil, Forest.bonds_nil, List.append_nil]
          exact release_change distinct context
      | some events =>
          rw [bind_of_ok (holding_of_ok (takeSheet_of_known found))]
          -- the sheet comes into the hand, goes into the context, and the old one is destroyed
          have taken := (Change.of_moved (moved_withoutSheet distinct found)).frame
            (Forest.bonds context.sheets)
          have registers := taken.perm (List.Perm.refl _)
            (bonds_withExternal targets target events).symm
          have replaced := registers.trans ((Change.destroyForest registers.distinct
            ((context.external? target).getD [])).frame
              (Forest.bonds (context.withExternal target events).2.sheets))
          have further := induction (context.withExternal target events).2 _ replaced.distinct
            (targets.put target events)
          rcases outcome : Named.takeAll (rest.map Prod.snd) (workspace.sheets.without name) with
            ⟨sheets, left?⟩
          rw [outcome] at further
          cases left? with
          | some left =>
              rcases further with ⟨population, destroyed, runs, same, change⟩
              refine ⟨population, _, runs, ?_, replaced.trans change⟩
              rw [List.perm_iff_count]
              intro bond
              have one := (bonds_withExternal targets target events).count_eq bond
              have two := same.count_eq bond
              simp only [List.flatten_cons, Forest.bonds_append, List.count_append] at one two ⊢
              have registeredSame : registering context (target :: rest.map Prod.fst)
                  (events :: sheets) = registering (context.withExternal target events).2
                    (rest.map Prod.fst) sheets := rfl
              rw [List.map_cons, registeredSame]
              simp only [List.count_nil]
              omega
          | none =>
              rcases further with ⟨astray, after, runs, change⟩
              refine ⟨astray, after, runs, ?_⟩
              apply (replaced.trans change).perm _ (List.Perm.refl _)
              rw [List.perm_iff_count]
              intro bond
              have one := (bonds_withExternal targets target events).count_eq bond
              simp only [List.flatten_cons, Forest.bonds_append, List.count_append,
                List.count_nil] at one ⊢
              omega

/-! ## The pass -/

variable [Behavior β] {fuel : Nat} {name : String}

theorem preprocess_of_unknown (missing : workspace.sheets.lookup name = none) :
    preprocess fuel context name workspace =
      (.error (.unknown name), (release context workspace).2) := by
  rw [preprocess, bind_of_error (holding_of_error (sheet_of_unknown missing))]

theorem preprocess_of_known {forest : Forest β}
    (found : workspace.sheets.lookup name = some forest) :
    preprocess fuel context name workspace =
      match Forest.preprocess fuel forest ⟨context, workspace.population⟩ with
      | none => (.ok none, workspace)
      | some ((result, visited), state) =>
          (.ok (some (visited, state.context)),
            { workspace with
              population := state.population
              sheets := workspace.sheets.change name fun _ => result }) := by
  have read : (get : Edit β (Workspace β)) workspace = (.ok workspace, workspace) := rfl
  rw [preprocess, bind_of_ok (holding_of_ok (sheet_of_known found)), bind_of_ok read]
  cases Forest.preprocess fuel forest ⟨context, workspace.population⟩ <;> rfl

/-- A pass over a sheet exchanges its nodes and those of the context, and nothing else. -/
theorem exchange_of_pass (keeps : Behavior.KeepsAccounts β) {forest result : Forest β}
    {state : PassState β} {calls : List (Preprocess.Call β (PassState β))}
    (distinct : workspace.Distinct) (found : workspace.sheets.lookup name = some forest)
    (traverses : Preprocess.Traverses Pass.visitor forest 0 ⟨context, workspace.population⟩ calls
      result state) :
    Exchange workspace.population (workspace.bonds ++ Forest.bonds context.sheets)
      state.population
      (bonds ⟨state.population, workspace.sheets.change name fun _ => result, workspace.held⟩ ++
        Forest.bonds state.context.sheets) := by
  have others := (traverses.exchange keeps).frame (bonds ⟨workspace.population,
    workspace.sheets.without name, workspace.held⟩)
  apply others.perm
  · rw [List.perm_iff_count]
    intro bond
    simp only [List.count_append, count_bonds,
      count_sheets (Named.perm_without distinct.sheets found) bond]
    omega
  · rw [List.perm_iff_count]
    intro bond
    simp only [List.count_append, count_bonds,
      count_sheets (Named.perm_change distinct.sheets found fun _ => result) bond]
    omega

/-! ## Compiling -/

theorem compile_of_none {settings : Settings} {address : Address}
    (missing : workspace.forestAt? address = none) :
    ∃ astray, compile fuel settings context address workspace =
      (.error astray, (release context workspace).2) := by
  rcases forestAt_of_none missing with ⟨astray, runs⟩
  exact ⟨astray, bind_of_error (holding_of_error runs)⟩

theorem compile_of_some {settings : Settings} {address : Address} {forest : Forest β}
    (found : workspace.forestAt? address = some forest) :
    compile fuel settings context address workspace =
      match compileEvents fuel settings context forest workspace.population with
      | none => (.ok none, workspace)
      | some (code, population) => (.ok (some code), { workspace with population }) := by
  have read : (get : Edit β (Workspace β)) workspace = (.ok workspace, workspace) := rfl
  rw [compile, bind_of_ok (holding_of_ok (forestAt_of_some found)), bind_of_ok read]
  cases compileEvents fuel settings context forest workspace.population <;> rfl

/-- Compiling destroys the working copy and the sheets of the context, and no other node. -/
theorem exchange_of_compile (keeps : Behavior.KeepsAccounts β) {settings : Settings}
    {forest : Forest β} {population final : Population} {code : GeneratedCode}
    (compiles : compileEvents fuel settings context forest population = some (code, final)) :
    Exchange population (Forest.bonds context.sheets) final [] := by
  have copied := Exchange.copyForest Event.itself forest population
  rw [← Forest.cloneRemembering_eq_copy] at copied
  rw [compileEvents_eq, Forest.preprocess_eq_recorded, Option.map_map,
    Option.map_eq_some_iff] at compiles
  rcases compiles with ⟨⟨⟨result, visited⟩, state, calls⟩, passes, same⟩
  have behind : populationBehind result state = final := congrArg Prod.snd same
  have passed := (copied.frameLeft (Forest.bonds context.sheets)).trans
    ((Forest.traverses_of_recorded passes).exchange keeps)
  rw [List.append_nil] at passed
  have working := (Exchange.destroyForest result state.population).frameLeft
    (Forest.bonds state.context.sheets)
  rw [List.append_nil] at working
  have sheets := Exchange.destroyForest state.context.sheets
    (Forest.destroy result state.population).2
  rw [← behind]
  exact passed.trans (working.trans sheets)

theorem compile_change (keeps : Behavior.KeepsAccounts β) {settings : Settings}
    {forest : Forest β} {final : Population} {code : GeneratedCode} (distinct : workspace.Distinct)
    (compiles : compileEvents fuel settings context forest workspace.population =
      some (code, final)) :
    Change [] (Forest.bonds context.sheets) workspace (Forest.bonds context.sheets)
      { workspace with population := final } [] := by
  apply Change.onPopulation distinct (exchange_of_compile keeps compiles)
  rw [List.append_nil, List.nil_append]

end EventSheet.Workspace
