import EventSheet.Scope
import Mathlib.Data.List.Induction
namespace EventSheet

/-! # Visibility

Members of a family are derived and asked in any order. Which names a member sees can be told from
the history alone: those shared by anyone, those it declared, and those declared around it before
the member on the way to it was derived. -/

namespace Scope

variable {scope : Scope}

/-- The names taken over from the blocks around this one, and its own. -/
def names (scope : Scope) : List String :=
  scope.inherited ++ scope.declared

theorem declare_fst (shared : SharedScope) (name : String) :
    (scope.declare shared name).1 = !scope.sees shared name := by
  rw [declare]
  split <;> simp_all

@[simp] theorem names_derive : scope.derive.names = scope.names := by
  rw [names, declared_derive, inherited_derive, List.append_nil, names]

theorem nodup_names_declare {shared : SharedScope} (distinct : scope.names.Nodup) (name : String) :
    (scope.declare shared name).2.names.Nodup := by
  rw [declare]
  split
  · exact distinct
  · rename_i unseen
    have isNew : name ∉ scope.names := by
      simp only [sees, Bool.or_eq_true, List.contains_iff_mem, not_or] at unseen
      rw [names, List.mem_append, not_or]
      exact unseen.1.symm
    show (scope.inherited ++ (scope.declared ++ [name])).Nodup
    rw [← List.append_assoc]
    exact List.nodup_append.mpr ⟨distinct, List.pairwise_singleton _ name, by grind [names]⟩

end Scope

namespace ScopeFamily

/-! ## Histories -/

/-- What is asked of a member of a family. -/
inductive Step
  | derive (member : Nat)
  | declare (member : Nat) (name : String)
  | declareShared (member : Nat) (name : String)
  | ask (member : Nat) (name : String)
  | uniqueName (member : Nat) (stem : String)
  deriving DecidableEq

def Step.member : Step → Nat
  | .derive member | .declare member _ | .declareShared member _ | .ask member _
  | .uniqueName member _ => member

def Step.derives : Step → Bool
  | .derive _ => true
  | _ => false

def perform (family : ScopeFamily) : Step → ScopeFamily
  | .derive member => (family.derive member).2
  | .declare member name => (family.declare member name).2
  | .declareShared _ name => (family.declareShared name).2
  | .ask _ _ => family
  | .uniqueName _ stem => (family.uniqueName stem).2

/-- A new root and what is derived from it, after a history. -/
def after (history : List Step) : ScopeFamily :=
  history.foldl perform {}

/-- The root and those derived. A derived member is named by how many there were before. -/
def members (history : List Step) : Nat :=
  history.countP Step.derives + 1

/-- Only members there are at the time are asked. -/
def Possible (history : List Step) : Prop :=
  ∀ moment step, history[moment]? = some step → step.member < members (history.take moment)

/-- `outer` is a member around `inner`, and at the moment given the member on the way from `outer`
to `inner` was derived from it. -/
inductive Encloses (history : List Step) (outer : Nat) : Nat → Nat → Prop
  | derived {moment : Nat} : history[moment]? = some (.derive outer) →
      Encloses history outer (members (history.take moment)) moment
  | further {between moment later : Nat} : Encloses history outer between moment →
      history[later]? = some (.derive between) →
      Encloses history outer (members (history.take later)) moment

/-- The names a member may see: those shared, those of its own, and those the members around it had
declared when it, or what it comes from, was derived from them. -/
def Visible (history : List Step) (member : Nat) (name : String) : Prop :=
  (∃ asker, .declareShared asker name ∈ history) ∨ .declare member name ∈ history ∨
    ∃ outer moment, Encloses history outer member moment ∧
      .declare outer name ∈ history.take moment

instance (history : List Step) : Decidable (Possible history) :=
  decidable_of_iff
    (∀ moment : Fin history.length, history[moment].member < members (history.take moment)) <| by
    constructor
    · intro below moment step found
      rcases List.getElem?_eq_some_iff.mp found with ⟨bound, rfl⟩
      exact below ⟨moment, bound⟩
    · intro possible moment
      exact possible moment _ (List.getElem?_eq_getElem moment.isLt)

variable {history : List Step} {step : Step}

/-! ## The members there are -/

theorem after_concat : after (history ++ [step]) = perform (after history) step :=
  List.foldl_append.trans rfl

theorem members_concat :
    members (history ++ [step]) = members history + if step.derives then 1 else 0 := by
  simp only [members, List.countP_append, List.countP_singleton]
  omega

theorem members_concat_of_not_derives (plain : step.derives = false) :
    members (history ++ [step]) = members history := by
  rw [members_concat, plain]
  rfl

theorem members_take_le (history : List Step) (moment : Nat) :
    members (history.take moment) ≤ members history :=
  Nat.succ_le_succ ((List.take_sublist moment history).countP_le)

/-- A member derived in the course of a history was not there before. -/
theorem members_take_lt {moment member : Nat} (derived : history[moment]? = some (.derive member)) :
    members (history.take moment) < members history := by
  have upTo : history.take (moment + 1) = history.take moment ++ [.derive member] := by
    rw [List.take_add_one, derived]
    rfl
  have bound := members_take_le history (moment + 1)
  rw [upTo, members_concat] at bound
  exact bound

theorem possible_concat :
    Possible (history ++ [step]) ↔ Possible history ∧ step.member < members history := by
  constructor
  · refine fun possible => ⟨fun moment earlier found => ?_, ?_⟩
    · have bound : moment < history.length := (List.getElem?_eq_some_iff.mp found).1
      have below := possible moment earlier (by rw [List.getElem?_append_left bound, found])
      rwa [List.take_append_of_le_length (Nat.le_of_lt bound)] at below
    · have below := possible history.length step List.getElem?_concat_length
      rwa [List.take_left] at below
  · rintro ⟨possible, below⟩ moment found atMoment
    rcases Nat.lt_or_ge moment history.length with bound | bound
    · rw [List.getElem?_append_left bound] at atMoment
      rw [List.take_append_of_le_length (Nat.le_of_lt bound)]
      exact possible moment found atMoment
    · have last : moment = history.length := by
        have := (List.getElem?_eq_some_iff.mp atMoment).1
        simp only [List.length_append, List.length_singleton] at this
        omega
      subst last
      rw [List.getElem?_concat_length, Option.some.injEq] at atMoment
      rw [List.take_left, ← atMoment]
      exact below

theorem length_scopes_perform (family : ScopeFamily) (step : Step) :
    (family.perform step).scopes.length =
      family.scopes.length + if step.derives then 1 else 0 := by
  cases step <;> simp [perform, derive, declare, setScope, declareShared, uniqueName, Step.derives]

theorem length_scopes_after (history : List Step) :
    (after history).scopes.length = members history := by
  induction history using List.reverseRecOn with
  | nil => rfl
  | append_singleton history step induction =>
      rw [after_concat, length_scopes_perform, induction, members_concat]

/-! ## Members around a member -/

namespace Encloses

variable {outer inner moment : Nat}

theorem moment_lt (encloses : Encloses history outer inner moment) : moment < history.length := by
  induction encloses with
  | derived derived => exact (List.getElem?_eq_some_iff.mp derived).1
  | further _ _ induction => exact induction

theorem inner_lt (encloses : Encloses history outer inner moment) : inner < members history := by
  cases encloses with
  | derived derived => exact members_take_lt derived
  | further _ derived => exact members_take_lt derived

theorem concat (encloses : Encloses history outer inner moment) :
    Encloses (history ++ [step]) outer inner moment := by
  have kept {moment member : Nat} (derived : history[moment]? = some (.derive member)) :
      (history ++ [step])[moment]? = some (.derive member) ∧
        members ((history ++ [step]).take moment) = members (history.take moment) := by
    have bound := (List.getElem?_eq_some_iff.mp derived).1
    rw [List.getElem?_append_left bound, List.take_append_of_le_length (Nat.le_of_lt bound)]
    exact ⟨derived, rfl⟩
  induction encloses with
  | derived derived =>
      rw [← (kept derived).2]
      exact .derived (kept derived).1
  | further _ derived induction =>
      rw [← (kept derived).2]
      exact .further induction (kept derived).1

end Encloses

theorem getElem?_concat_derive {moment member : Nat}
    (derived : (history ++ [step])[moment]? = some (.derive member)) :
    (history[moment]? = some (.derive member) ∧
      (history ++ [step]).take moment = history.take moment) ∨
    (step = .derive member ∧ moment = history.length ∧
      (history ++ [step]).take moment = history) := by
  rcases Nat.lt_or_ge moment history.length with bound | bound
  · rw [List.getElem?_append_left bound] at derived
    exact .inl ⟨derived, List.take_append_of_le_length (Nat.le_of_lt bound)⟩
  · have last : moment = history.length := by
      have := (List.getElem?_eq_some_iff.mp derived).1
      simp only [List.length_append, List.length_singleton] at this
      omega
    subst last
    rw [List.getElem?_concat_length, Option.some.injEq] at derived
    exact .inr ⟨derived, rfl, List.take_left⟩

/-- A step puts nothing around the members there are. A member derived has around it the one it is
derived from and what is around that one. -/
theorem encloses_concat (possible : Possible (history ++ [step])) {outer inner moment : Nat} :
    Encloses (history ++ [step]) outer inner moment ↔
      Encloses history outer inner moment ∨
        ∃ parent, step = .derive parent ∧ inner = members history ∧
          ((outer = parent ∧ moment = history.length) ∨ Encloses history outer parent moment) := by
  have earlier := (possible_concat.mp possible).1
  constructor
  · intro encloses
    induction encloses with
    | derived derived =>
        rcases getElem?_concat_derive derived with ⟨derived, same⟩ | ⟨rfl, atEnd, same⟩
        · rw [same]
          exact .inl (.derived derived)
        · rw [same]
          exact .inr ⟨outer, rfl, rfl, .inl ⟨rfl, atEnd⟩⟩
    | @further between moment later _ derived induction =>
        have below : between < members history := by
          rcases getElem?_concat_derive derived with ⟨derived, same⟩ | ⟨rfl, -, same⟩
          · exact Nat.lt_of_lt_of_le (earlier later _ derived) (members_take_le history later)
          · exact (possible_concat.mp possible).2
        have around : Encloses history outer between moment := by
          rcases induction with around | ⟨_, _, isNew, _⟩
          · exact around
          · omega
        rcases getElem?_concat_derive derived with ⟨derived, same⟩ | ⟨rfl, -, same⟩
        · rw [same]
          exact .inl (.further around derived)
        · rw [same]
          exact .inr ⟨between, rfl, rfl, .inr around⟩
  · rintro (around | ⟨parent, rfl, rfl, around⟩)
    · exact around.concat
    · have derived : (history ++ [.derive parent])[history.length]? = some (.derive parent) :=
        List.getElem?_concat_length
      have same : (history ++ [Step.derive parent]).take history.length = history := List.take_left
      rcases around with ⟨rfl, rfl⟩ | around
      · conv => arg 3; rw [← same]
        exact .derived derived
      · conv => arg 3; rw [← same]
        exact .further around.concat derived

/-! ## What a step brings into sight -/

section Members

variable {family : ScopeFamily} {member other : Nat}

theorem scope_declare (present : member < family.scopes.length) (name : String) :
    (family.declare member name).2.scope other =
      if other = member then ((family.scope member).declare family.shared name).2
      else family.scope other := by
  simp only [declare, setScope, scope, List.getElem?_set]
  grind

theorem scope_derive (present : other < family.scopes.length) :
    (family.derive member).2.scope other = family.scope other := by
  simp only [scope, derive, List.getElem?_append_left present]

theorem scope_derive_new :
    (family.derive member).2.scope family.scopes.length = (family.scope member).derive := by
  simp only [scope, derive, List.getElem?_concat_length, Option.getD_some]

theorem sees_declare (present : member < family.scopes.length) (name text : String) :
    (family.declare member name).2.sees other text = true ↔
      family.sees other text = true ∨ (member = other ∧ name = text) := by
  have shared : (family.declare member name).2.shared = family.shared := rfl
  rw [sees, scope_declare present, shared]
  by_cases same : other = member
  · rw [if_pos same, Scope.sees_declare, or_comm, same, sees]
    simp only [true_and, eq_comm]
  · rw [if_neg same]
    simp only [Ne.symm same, false_and, or_false, sees]

theorem sees_declareShared (name text : String) :
    (family.declareShared name).2.sees other text = true ↔
      family.sees other text = true ∨ name = text := by
  rw [or_comm, eq_comm (a := name)]
  exact Scope.sees_declareShared name text

theorem sees_derive (present : other < family.scopes.length) (text : String) :
    (family.derive member).2.sees other text = family.sees other text := by
  rw [sees, scope_derive present]
  rfl

theorem sees_derive_new (text : String) :
    (family.derive member).2.sees family.scopes.length text = family.sees member text := by
  rw [sees, scope_derive_new]
  exact Scope.sees_derive text

/-- A step lets a member see what it saw and the name it declares, or that anyone shares. -/
theorem sees_perform {step : Step} (asked : step.member < family.scopes.length)
    (present : other < family.scopes.length) (text : String) :
    (family.perform step).sees other text = true ↔
      family.sees other text = true ∨ (∃ asker, step = .declareShared asker text) ∨
        step = .declare other text := by
  cases step with
  | derive member =>
      rw [perform, sees_derive present]
      simp
  | declare member name =>
      have asked : member < family.scopes.length := asked
      rw [perform, sees_declare asked]
      simp
  | declareShared member name =>
      rw [perform, sees_declareShared]
      simp
  | ask member name => simp [perform]
  | uniqueName member stem =>
      have same : (family.perform (.uniqueName member stem)).sees other text =
        family.sees other text := rfl
      rw [same]
      simp

end Members

/-- Of the members there are, one may see after a step what it might before, and the name it
declares or that anyone shares. -/
theorem visible_concat (possible : Possible (history ++ [step])) {other : Nat}
    (present : other < members history) (text : String) :
    Visible (history ++ [step]) other text ↔
      Visible history other text ∨ (∃ asker, step = .declareShared asker text) ∨
        step = .declare other text := by
  have around (outer moment : Nat) :
      (Encloses (history ++ [step]) outer other moment ∧
        .declare outer text ∈ (history ++ [step]).take moment) ↔
      (Encloses history outer other moment ∧ .declare outer text ∈ history.take moment) := by
    rw [encloses_concat possible]
    constructor
    · rintro ⟨encloses | ⟨_, _, isNew, _⟩, declared⟩
      · rw [List.take_append_of_le_length (Nat.le_of_lt encloses.moment_lt)] at declared
        exact ⟨encloses, declared⟩
      · omega
    · rintro ⟨encloses, declared⟩
      rw [List.take_append_of_le_length (Nat.le_of_lt encloses.moment_lt)]
      exact ⟨.inl encloses, declared⟩
  simp only [Visible, around, List.mem_append, List.mem_singleton, exists_or]
  grind

/-- A member just derived may see what the one it is derived from may. -/
theorem visible_derived {parent : Nat} (possible : Possible (history ++ [.derive parent]))
    (text : String) :
    Visible (history ++ [.derive parent]) (members history) text ↔ Visible history parent text := by
  have below : parent < members history := (possible_concat.mp possible).2
  have own : Step.declare (members history) text ∉ history := by
    intro declared
    rcases List.getElem?_of_mem declared with ⟨moment, found⟩
    have := (possible_concat.mp possible).1 moment _ found
    have := members_take_le history moment
    simp only [Step.member] at *
    omega
  have around (outer moment : Nat) :
      (Encloses (history ++ [.derive parent]) outer (members history) moment ∧
        Step.declare outer text ∈ (history ++ [Step.derive parent]).take moment) ↔
      ((outer = parent ∧ moment = history.length ∧ .declare parent text ∈ history) ∨
        (Encloses history outer parent moment ∧ .declare outer text ∈ history.take moment)) := by
    rw [encloses_concat possible]
    constructor
    · rintro ⟨encloses | ⟨_, isParent, -, ⟨rfl, rfl⟩ | encloses⟩, declared⟩
      · exact absurd encloses.inner_lt (Nat.lt_irrefl _)
      · cases isParent
        rw [List.take_left] at declared
        exact .inl ⟨rfl, rfl, declared⟩
      · cases isParent
        rw [List.take_append_of_le_length (Nat.le_of_lt encloses.moment_lt)] at declared
        exact .inr ⟨encloses, declared⟩
    · rintro (⟨rfl, rfl, declared⟩ | ⟨encloses, declared⟩)
      · rw [List.take_left]
        exact ⟨.inr ⟨outer, rfl, rfl, .inl ⟨rfl, rfl⟩⟩, declared⟩
      · rw [List.take_append_of_le_length (Nat.le_of_lt encloses.moment_lt)]
        exact ⟨.inr ⟨parent, rfl, rfl, .inr encloses⟩, declared⟩
  simp only [Visible, around, List.mem_append, List.mem_singleton, reduceCtorEq, or_false, own,
    false_or, exists_or]
  simp only [exists_and_left, exists_eq_left]

/-! ## What members see -/

theorem sees_after (possible : Possible history) {member : Nat}
    (present : member < members history) (text : String) :
    (after history).sees member text = true ↔ Visible history member text := by
  induction history using List.reverseRecOn generalizing member with
  | nil =>
      have isRoot : member = 0 := Nat.lt_one_iff.mp present
      have nothing (outer moment : Nat) : ¬ Encloses [] outer member moment :=
        fun encloses => absurd encloses.moment_lt (Nat.not_lt_zero _)
      subst isRoot
      simp [Visible, nothing, after, sees, scope, Scope.sees]
  | append_singleton history step induction =>
      rcases possible_concat.mp possible with ⟨earlier, asked⟩
      rw [after_concat]
      rcases Nat.lt_or_ge member (members history) with old | isNew
      · rw [sees_perform (by rwa [length_scopes_after]) (by rwa [length_scopes_after]),
          induction earlier old, visible_concat possible old]
      · cases step with
        | derive parent =>
            have last : member = members history := by
              rw [members_concat] at present
              exact Nat.le_antisymm (Nat.le_of_lt_succ present) isNew
            subst last
            rw [visible_derived possible, ← length_scopes_after, perform, sees_derive_new]
            exact induction earlier asked
        | declare | declareShared | ask | uniqueName =>
            rw [members_concat_of_not_derives rfl] at present
            exact absurd present (Nat.not_lt.mpr isNew)

/-- No step lets a member have a name twice. -/
theorem nodup_perform {family : ScopeFamily} (asked : step.member < family.scopes.length)
    (distinct : ∀ member, (family.scope member).names.Nodup) (member : Nat) :
    ((family.perform step).scope member).names.Nodup := by
  cases step with
  | derive parent =>
      show ((family.derive parent).2.scope member).names.Nodup
      rcases Nat.lt_trichotomy member family.scopes.length with old | isNew | missing
      · rw [scope_derive old]
        exact distinct member
      · rw [isNew, scope_derive_new, Scope.names_derive]
        exact distinct parent
      · have absent : (family.derive parent).2.scope member = {} := by
          rw [scope, List.getElem?_eq_none (by simpa [derive] using Nat.succ_le_of_lt missing),
            Option.getD_none]
        rw [absent]
        exact List.nodup_nil
  | declare target name =>
      show ((family.declare target name).2.scope member).names.Nodup
      have asked : target < family.scopes.length := asked
      rw [scope_declare asked]
      by_cases same : member = target
      · rw [if_pos same]
        exact Scope.nodup_names_declare (distinct target) name
      · rw [if_neg same]
        exact distinct member
  | declareShared | ask | uniqueName => exact distinct member

theorem nodup_names_after (possible : Possible history) (member : Nat) :
    ((after history).scope member).names.Nodup := by
  induction history using List.reverseRecOn generalizing member with
  | nil =>
      cases member <;> exact List.nodup_nil
  | append_singleton history step induction =>
      rcases possible_concat.mp possible with ⟨earlier, asked⟩
      rw [after_concat]
      exact nodup_perform (by rwa [length_scopes_after]) (induction earlier) member

/-! ## Histories but for a declaration -/

/-- Whom a step asks, and whether it derives: what decides which members there are. -/
def Step.outline (step : Step) : Nat × Bool :=
  (step.member, step.derives)

theorem Step.outline_eq_derive {member : Nat} :
    step.outline = (member, true) ↔ step = .derive member := by
  cases step <;> simp [outline, Step.member, derives]

section Outlines

variable {left right : List Step} (same : left.map Step.outline = right.map Step.outline)
include same

theorem outline_take (moment : Nat) :
    (left.take moment).map Step.outline = (right.take moment).map Step.outline := by
  rw [List.map_take, List.map_take, same]

theorem members_congr : members left = members right := by
  have counted (history : List Step) :
      members history = (history.map Step.outline).countP Prod.snd + 1 := by
    rw [List.countP_map]
    rfl
  rw [counted, counted, same]

theorem exists_outline {moment : Nat} {step : Step} (found : left[moment]? = some step) :
    ∃ other, right[moment]? = some other ∧ other.outline = step.outline := by
  have outlined : (right.map Step.outline)[moment]? = some step.outline := by
    rw [← same, List.getElem?_map, found, Option.map_some]
  rw [List.getElem?_map, Option.map_eq_some_iff] at outlined
  exact outlined

theorem getElem?_derive_congr {moment member : Nat}
    (derived : left[moment]? = some (.derive member)) :
    right[moment]? = some (.derive member) := by
  rcases exists_outline same derived with ⟨other, found, outlined⟩
  have isDerive : other = .derive member := Step.outline_eq_derive.mp outlined
  rw [found, isDerive]

theorem Possible.congr (possible : Possible left) : Possible right := by
  intro moment step found
  rcases exists_outline same.symm found with ⟨other, found, outlined⟩
  have below := possible moment other found
  rw [members_congr (outline_take same moment)] at below
  have asked : other.member = step.member := congrArg Prod.fst outlined
  rwa [asked] at below

theorem Encloses.congr {outer inner moment : Nat} (encloses : Encloses left outer inner moment) :
    Encloses right outer inner moment := by
  induction encloses with
  | @derived moment derived =>
      rw [members_congr (outline_take same moment)]
      exact .derived (getElem?_derive_congr same derived)
  | @further between moment later _ derived induction =>
      rw [members_congr (outline_take same later)]
      exact .further induction (getElem?_derive_congr same derived)

end Outlines

section Declarations

variable {later : List Step} {member : Nat} {name : String}

theorem outline_declare_ask (history later : List Step) (member : Nat) (name : String) :
    (history ++ .declare member name :: later).map Step.outline =
      (history ++ .ask member name :: later).map Step.outline := by
  rw [List.map_append, List.map_append]
  rfl

theorem declare_mem_take {moment outer : Nat} {text : String} :
    .declare outer text ∈ (history ++ .declare member name :: later).take moment ↔
      .declare outer text ∈ (history ++ .ask member name :: later).take moment ∨
        (history.length < moment ∧ outer = member ∧ text = name) := by
  rcases Nat.lt_or_ge history.length moment with behind | ahead
  · rcases Nat.exists_eq_add_of_lt behind with ⟨beyond, rfl⟩
    have taken (step : Step) : (history ++ step :: later).take (history.length + beyond + 1) =
        history ++ step :: later.take beyond := by
      rw [Nat.add_assoc, List.take_length_add_append, List.take_succ_cons]
    rw [taken, taken]
    simp only [List.mem_append, List.mem_cons, Step.declare.injEq, reduceCtorEq, false_or, behind,
      true_and]
    grind
  · rw [List.take_append_of_le_length ahead, List.take_append_of_le_length ahead]
    simp [Nat.not_lt.mpr ahead]

/-- What may be seen because of one declaration. -/
theorem visible_declare {other : Nat} {text : String} :
    Visible (history ++ .declare member name :: later) other text ↔
      Visible (history ++ .ask member name :: later) other text ∨
        (text = name ∧ (other = member ∨ ∃ moment, history.length < moment ∧
          Encloses (history ++ .declare member name :: later) member other moment)) := by
  have around (outer moment : Nat) :
      Encloses (history ++ .ask member name :: later) outer other moment ↔
        Encloses (history ++ .declare member name :: later) outer other moment :=
    ⟨.congr (outline_declare_ask history later member name).symm,
      .congr (outline_declare_ask history later member name)⟩
  simp only [Visible, around, declare_mem_take]
  simp only [List.mem_append, List.mem_cons, reduceCtorEq, false_or, Step.declare.injEq]
  grind

end Declarations

/-- Who sees a name follows how members are derived from each other, in whatever order they are
derived and asked. A declaration answers whether the name was unseen, and is seen because of it by
its member and by what is derived from that later. -/
theorem visibility_follows_derivation (possible : Possible history) {member : Nat}
    (present : member < members history) (name : String) :
    ((after history).sees member name = true ↔ Visible history member name) ∧
    (((after history).declare member name).1 = true ↔ ¬ Visible history member name) ∧
    (∀ later, Possible (history ++ .declare member name :: later) →
      ∀ other < members (history ++ .declare member name :: later), ∀ text,
        (after (history ++ .declare member name :: later)).sees other text = true ↔
          (after (history ++ .ask member name :: later)).sees other text = true ∨
            (text = name ∧ (other = member ∨ ∃ moment, history.length < moment ∧
              Encloses (history ++ .declare member name :: later) member other moment))) ∧
    (∀ other < members history, other ≠ member → ∀ text,
      (after (history ++ [.declare member name])).sees other text =
        (after history).sees other text) ∧
    ((after history).scope member).names.Nodup := by
  have seen := sees_after possible present name
  refine ⟨seen, ?_, fun later possible other present text => ?_, fun other old distinct text => ?_,
    nodup_names_after possible member⟩
  · have answer : ((after history).declare member name).1 = !(after history).sees member name :=
      Scope.declare_fst _ name
    rw [answer, ← seen, Bool.not_eq_true', Bool.not_eq_true]
  · have outlined := outline_declare_ask history later member name
    rw [sees_after possible present, visible_declare,
      sees_after (possible.congr outlined) (members_congr outlined ▸ present)]
  · rw [Bool.eq_iff_iff, after_concat, perform,
      sees_declare (by rwa [length_scopes_after])]
    simp [distinct.symm]

/-- A name of the root from before the first block, and one from after it. -/
def lateDeclaration : List Step :=
  [.declare 0 "outer", .derive 0, .declare 0 "late", .derive 1, .derive 0]

/-- The inner block of `lateDeclaration` does not see the late name, also after others declared
it, while a block beside those sees it. -/
theorem late_unseen_in_inner_block :
    Possible lateDeclaration ∧ 2 < members lateDeclaration ∧
      ((after lateDeclaration).sees 2 "late" = true ↔ Visible lateDeclaration 2 "late") ∧
      ¬ Visible lateDeclaration 2 "late" ∧ Visible lateDeclaration 2 "outer" ∧
      ((after lateDeclaration).declare 2 "late").1 = true ∧
      (after (lateDeclaration ++ .declare 2 "late" :: [.derive 2])).sees 4 "late" = true ∧
      (after (lateDeclaration ++ [.declare 2 "late"])).sees 1 "late" = false := by
  have possible : Possible lateDeclaration := by decide
  have present : 2 < members lateDeclaration := by decide
  rcases visibility_follows_derivation possible present "late" with
    ⟨seen, answer, because, others, -⟩
  have unseen : ¬ Visible lateDeclaration 2 "late" := by
    rw [← seen]
    decide +kernel
  refine ⟨possible, present, seen, unseen, ?_, answer.mpr unseen, ?_, ?_⟩
  · exact (visibility_follows_derivation possible present "outer").1.mp (by decide +kernel)
  · refine (because [.derive 2] (by decide) 4 (by decide) "late").mpr (.inr ⟨rfl, .inr ⟨6, ?_⟩⟩)
    have derived : (lateDeclaration ++ .declare 2 "late" :: [.derive 2])[6]? = some (.derive 2) :=
      rfl
    exact ⟨by decide, .derived derived⟩
  · rw [others 1 (by decide) (by decide)]
    decide +kernel

end ScopeFamily

end EventSheet
