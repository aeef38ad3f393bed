import EventSheet.Proofs.Traversal.Passes
import Mathlib.Data.Fintype.Card
import Mathlib.Data.Set.Finite.Basic
import Mathlib.Logic.Relation
namespace EventSheet

/-! # Sheets that include sheets

A sheet includes another through an active link to it. As long as no sheet includes itself,
directly or through others, a forest has a number of links that a pass has to expand: those of the
forest, those of the sheets they bring, and so on. -/

open Kind (Builtin)

/-- The targets of the active links, in pre-order. -/
def Forest.targets (forest : Forest Builtin) : List String :=
  (Forest.active forest).filterMap fun event => event.behavior.target?

/-- One sheet has an active link to another. -/
def Includes (externals : Named (Forest Builtin)) (outer inner : String) : Prop :=
  ∃ sheet, externals.lookup outer = some sheet ∧ inner ∈ Forest.targets sheet ∧
    (externals.lookup inner).isSome

/-- No sheet includes itself, directly or through others. -/
def Acyclic (externals : Named (Forest Builtin)) : Prop :=
  ∀ name, ¬ Relation.TransGen (Includes externals) name name

/-- Expanding the links of a forest, and those of the sheets that this brings, takes this many
expansions and meets these targets that are no sheets. -/
inductive Unfolds (externals : Named (Forest Builtin)) :
    Forest Builtin → Nat → List String → Prop
  | nil : Unfolds externals [] 0 []
  | disabled {head : Node Builtin} {tail : Forest Builtin} {expansions : Nat}
      {unknown : List String} (disabled : head.event.disabled = true)
      (behind : Unfolds externals tail expansions unknown) :
      Unfolds externals (head :: tail) expansions unknown
  | other {head : Node Builtin} {tail : Forest Builtin} {inner outer : Nat}
      {unknownBelow unknownBehind : List String} (enabled : head.event.disabled = false)
      (noLink : head.event.behavior.target? = none)
      (inside : Unfolds externals head.subEvents inner unknownBelow)
      (behind : Unfolds externals tail outer unknownBehind) :
      Unfolds externals (head :: tail) (inner + outer) (unknownBelow ++ unknownBehind)
  | included {head : Node Builtin} {tail sheet : Forest Builtin} {target : String}
      {inner outer : Nat} {unknownBelow unknownBehind : List String}
      (enabled : head.event.disabled = false)
      (link : head.event.behavior.target? = some target)
      (known : externals.lookup target = some sheet)
      (content : Unfolds externals sheet inner unknownBelow)
      (behind : Unfolds externals tail outer unknownBehind) :
      Unfolds externals (head :: tail) (1 + inner + outer) (unknownBelow ++ unknownBehind)
  | unknown {head : Node Builtin} {tail : Forest Builtin} {target : String} {expansions : Nat}
      {unknown : List String} (enabled : head.event.disabled = false)
      (link : head.event.behavior.target? = some target)
      (missing : externals.lookup target = none)
      (behind : Unfolds externals tail expansions unknown) :
      Unfolds externals (head :: tail) expansions (target :: unknown)

variable {externals : Named (Forest Builtin)} {forest : Forest Builtin}

/-- A forest unfolds in one way. -/
theorem Unfolds.unique {expansions : Nat} {unknown : List String}
    (first : Unfolds externals forest expansions unknown) :
    ∀ {others : Nat} {unknown' : List String}, Unfolds externals forest others unknown' →
      others = expansions ∧ unknown' = unknown := by
  induction first with
  | nil =>
      intro _ _ second
      cases second
      exact ⟨rfl, rfl⟩
  | disabled disabled _ behindInduction =>
      intro _ _ second
      cases second with
      | disabled _ behind => exact behindInduction behind
      | other enabled _ _ _ => exact absurd (disabled.symm.trans enabled) nofun
      | included enabled _ _ _ _ => exact absurd (disabled.symm.trans enabled) nofun
      | unknown enabled _ _ _ => exact absurd (disabled.symm.trans enabled) nofun
  | other enabled noLink _ _ insideInduction behindInduction =>
      intro _ _ second
      cases second with
      | disabled disabled _ => exact absurd (disabled.symm.trans enabled) nofun
      | other _ _ inside behind =>
          rcases insideInduction inside with ⟨rfl, rfl⟩
          rcases behindInduction behind with ⟨rfl, rfl⟩
          exact ⟨rfl, rfl⟩
      | included _ link _ _ _ => exact absurd (noLink.symm.trans link) nofun
      | unknown _ link _ _ => exact absurd (noLink.symm.trans link) nofun
  | included enabled link known _ _ contentInduction behindInduction =>
      intro _ _ second
      cases second with
      | disabled disabled _ => exact absurd (disabled.symm.trans enabled) nofun
      | other _ noLink _ _ => exact absurd (noLink.symm.trans link) nofun
      | included _ again found content behind =>
          cases link.symm.trans again
          cases known.symm.trans found
          rcases contentInduction content with ⟨rfl, rfl⟩
          rcases behindInduction behind with ⟨rfl, rfl⟩
          exact ⟨rfl, rfl⟩
      | unknown _ again missing _ =>
          cases link.symm.trans again
          exact absurd (missing.symm.trans known) nofun
  | unknown enabled link missing _ behindInduction =>
      intro _ _ second
      cases second with
      | disabled disabled _ => exact absurd (disabled.symm.trans enabled) nofun
      | other _ noLink _ _ => exact absurd (noLink.symm.trans link) nofun
      | included _ again known _ _ =>
          cases link.symm.trans again
          exact absurd (missing.symm.trans known) nofun
      | unknown _ again _ behind =>
          cases link.symm.trans again
          rcases behindInduction behind with ⟨rfl, rfl⟩
          exact ⟨rfl, rfl⟩

/-! ## Targets -/

theorem Forest.targets_of_disabled {head : Node Builtin} (disabled : head.event.disabled = true)
    (tail : Forest Builtin) : Forest.targets (head :: tail) = Forest.targets tail := by
  rw [targets, active_cons, Node.active_of_disabled disabled, List.nil_append, targets]

theorem Forest.targets_of_enabled {head : Node Builtin} (enabled : head.event.disabled = false)
    (tail : Forest Builtin) :
    Forest.targets (head :: tail) = head.event.behavior.target?.toList ++
      (Forest.targets head.subEvents ++ Forest.targets tail) := by
  rw [targets, active_cons, Node.active_of_enabled enabled, List.cons_append, targets, targets,
    ← List.filterMap_append]
  cases link : head.event.behavior.target? with
  | none => simp [link]
  | some target => simp [link]

/-! ## Acyclic sheets -/

/-- A number that decreases from every sheet to those it includes keeps them from including
themselves. -/
theorem acyclic_of_rank (rank : String → Nat)
    (decreases : ∀ outer inner, Includes externals outer inner → rank inner < rank outer) :
    Acyclic externals := by
  have along : ∀ {outer inner}, Relation.TransGen (Includes externals) outer inner →
      rank inner < rank outer := by
    intro outer inner path
    induction path with
    | single step => exact decreases _ _ step
    | tail _ step induction => exact Nat.lt_trans (decreases _ _ step) induction
  exact fun name cycle => Nat.lt_irrefl _ (along cycle)

theorem mem_names_of_lookup {name : String} {sheet : Forest Builtin}
    (known : externals.lookup name = some sheet) : name ∈ externals.map Prod.fst := by
  rw [List.lookup_eq_some_iff] at known
  rcases known with ⟨before, behind, rfl, _⟩
  simp

/-- From sheet to included sheet one comes to an end: there are finitely many. -/
theorem wellFounded_includes (acyclic : Acyclic externals) :
    WellFounded fun inner outer : { name // name ∈ externals.map Prod.fst } =>
      Includes externals outer.1 inner.1 := by
  have : Finite { name // name ∈ externals.map Prod.fst } :=
    (List.finite_toSet (externals.map Prod.fst)).to_subtype
  let Within (inner outer : { name // name ∈ externals.map Prod.fst }) : Prop :=
    Relation.TransGen (Includes externals) outer.1 inner.1
  have transitive : IsTrans _ Within := ⟨fun _ _ _ first second => second.trans first⟩
  have irreflexive : Std.Irrefl Within := ⟨fun name => acyclic name.1⟩
  have wellFounded : WellFounded Within := Finite.wellFounded_of_trans_of_irrefl Within
  exact Subrelation.wf (fun step => Relation.TransGen.single step) wellFounded

/-- A forest unfolds when the sheets it has links to do. -/
theorem exists_unfolds_of_targets : ∀ forest : List (Node Builtin),
    (∀ target ∈ Forest.targets forest, ∀ sheet, externals.lookup target = some sheet →
      ∃ expansions unknown, Unfolds externals sheet expansions unknown) →
    ∃ expansions unknown, Unfolds externals forest expansions unknown
  | [], _ => ⟨0, [], .nil⟩
  | ⟨event, subEvents⟩ :: tail, sheets => by
      cases disabled : event.disabled with
      | true =>
          rw [Forest.targets_of_disabled (by exact disabled)] at sheets
          rcases exists_unfolds_of_targets tail sheets with ⟨_, _, behind⟩
          exact ⟨_, _, .disabled disabled behind⟩
      | false =>
          rw [Forest.targets_of_enabled (by exact disabled), List.forall_mem_append,
            List.forall_mem_append] at sheets
          rcases sheets with ⟨ofLink, ofSubEvents, ofTail⟩
          rcases exists_unfolds_of_targets tail ofTail with ⟨_, _, behind⟩
          cases link : event.behavior.target? with
          | none =>
              rcases exists_unfolds_of_targets subEvents ofSubEvents with ⟨_, _, inside⟩
              exact ⟨_, _, .other disabled link inside behind⟩
          | some target =>
              cases found : externals.lookup target with
              | none => exact ⟨_, _, .unknown disabled link found behind⟩
              | some sheet =>
                  have isTarget : target ∈ event.behavior.target?.toList := by
                    rw [link]
                    exact List.mem_singleton_self target
                  rcases ofLink target isTarget sheet found with ⟨_, _, content⟩
                  exact ⟨_, _, .included disabled link found content behind⟩

/-- Every forest unfolds when no sheet includes itself. -/
theorem exists_unfolds (acyclic : Acyclic externals) (forest : Forest Builtin) :
    ∃ expansions unknown, Unfolds externals forest expansions unknown := by
  have ofSheet : ∀ name : { name // name ∈ externals.map Prod.fst }, ∀ sheet,
      externals.lookup name.1 = some sheet →
      ∃ expansions unknown, Unfolds externals sheet expansions unknown := by
    intro name
    induction name using (wellFounded_includes acyclic).induction with
    | h outer induction =>
        intro sheet known
        apply exists_unfolds_of_targets
        intro target isTarget inner found
        have included : (externals.lookup target).isSome := Option.isSome_of_mem found
        exact induction ⟨target, mem_names_of_lookup found⟩ ⟨sheet, known, isTarget, included⟩
          inner found
  exact exists_unfolds_of_targets forest fun target _ sheet known =>
    ofSheet ⟨target, mem_names_of_lookup known⟩ sheet known

end EventSheet
