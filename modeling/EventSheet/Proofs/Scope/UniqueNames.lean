import EventSheet.Proofs.Scope.Visibility
import Mathlib.Data.List.Nodup
namespace EventSheet

/-! # Unique names

Names are numbered stem by stem, with counters that all members of a family share. A stem may look
like a name itself, so that no two names are the same rests on two things: a stem and a number can
be told from the name they make, and no stem is given a number twice. -/

/-! ## Numbered names -/

/-- In two texts cut at a mark each, the cuts are at the same place when there is no mark behind
them. -/
theorem append_cons_inj_of_not_mem {α : Type} {mark : α} {left right leftTail rightTail : List α}
    (leftLast : mark ∉ leftTail) (rightLast : mark ∉ rightTail)
    (same : left ++ mark :: leftTail = right ++ mark :: rightTail) :
    left = right ∧ leftTail = rightTail := by
  rcases List.append_eq_append_iff.mp same with ⟨between, rfl, tails⟩ | ⟨between, rfl, tails⟩
  · cases between with
    | nil => exact ⟨(List.append_nil left).symm, (List.cons.inj tails).2⟩
    | cons head rest =>
        rw [(List.cons.inj tails).2] at leftLast
        exact absurd (List.mem_append_right rest List.mem_cons_self) leftLast
  · cases between with
    | nil => exact ⟨List.append_nil right, (List.cons.inj tails).2.symm⟩
    | cons head rest =>
        rw [(List.cons.inj tails).2] at rightLast
        exact absurd (List.mem_append_right rest List.mem_cons_self) rightLast

namespace SharedScope

theorem repr_injective : Function.Injective Nat.repr := by
  intro first second same
  rw [← String.toList_inj, Nat.toList_repr, Nat.toList_repr] at same
  have digits := congrArg (Nat.ofDigitChars 10 · 0) same
  simpa only [Nat.ofDigitChars_ten_toDigits] using digits

theorem underscore_not_mem_repr (number : Nat) : '_' ∉ (Nat.repr number).toList := by
  rw [Nat.toList_repr]
  intro isDigit
  exact absurd (Nat.isDigit_of_mem_toDigits (by decide) (by decide) isDigit) (by decide)

/-- A name tells its stem and its number, whatever the stem ends in: the number is what is behind
the last underscore. -/
theorem numbered_inj {stem other : String} {first second : Nat} :
    numbered stem first = numbered other second ↔ stem = other ∧ first = second := by
  constructor
  · intro same
    have characters := congrArg String.toList same
    simp only [numbered, String.toList_append, List.append_assoc] at characters
    have parts := append_cons_inj_of_not_mem (underscore_not_mem_repr first)
      (underscore_not_mem_repr second) characters
    exact ⟨String.toList_inj.mp parts.1, repr_injective (String.toList_inj.mp parts.2)⟩
  · rintro ⟨rfl, rfl⟩
    rfl

theorem numbered_injective (stem : String) : Function.Injective (numbered stem) :=
  fun _ _ same => (numbered_inj.mp same).2

/-! ## Counters -/

theorem lookup_setCount_self (stem : String) (count : Nat) (counters : List (String × Nat)) :
    (setCount stem count counters).lookup stem = some count := by
  induction counters with
  | nil => rw [setCount, List.lookup_cons_self]
  | cons head tail induction =>
      rcases head with ⟨other, number⟩
      rw [setCount]
      by_cases same : other = stem
      · rw [if_pos same, List.lookup_cons_self]
      · have unequal : (stem == other) = false := by simp [Ne.symm same]
        rw [if_neg same, List.lookup_cons, unequal]
        exact induction

theorem lookup_setCount_of_ne {stem other : String} (different : other ≠ stem) (count : Nat)
    (counters : List (String × Nat)) :
    (setCount stem count counters).lookup other = counters.lookup other := by
  have unequal : (other == stem) = false := by simp [different]
  induction counters with
  | nil => rw [setCount, List.lookup_cons, unequal]
  | cons head tail induction =>
      rcases head with ⟨name, number⟩
      rw [setCount]
      by_cases same : name = stem
      · rw [if_pos same, List.lookup_cons, List.lookup_cons, same, unequal]
      · rw [if_neg same, List.lookup_cons, List.lookup_cons, induction]

theorem count_uniqueName_self (shared : SharedScope) (stem : String) :
    (shared.uniqueName stem).2.count stem = shared.count stem + 1 := by
  rw [uniqueName, count, lookup_setCount_self, Option.getD_some]

theorem count_uniqueName_of_ne (shared : SharedScope) {stem other : String}
    (different : other ≠ stem) :
    (shared.uniqueName stem).2.count other = shared.count other := by
  rw [uniqueName, count, lookup_setCount_of_ne different, count]

end SharedScope

/-! ## Names handed out in a family -/

namespace ScopeFamily

def Step.stem? : Step → Option String
  | .uniqueName _ stem => some stem
  | _ => none

/-- The name that a step is answered with. -/
def answer? (family : ScopeFamily) : Step → Option String
  | .uniqueName _ stem => some (family.uniqueName stem).1
  | _ => none

/-- The stems of the names asked for in the course of a history, oldest first. -/
def stems (history : List Step) : List String := history.filterMap Step.stem?

/-- The names a family hands out in the course of a history, oldest first. -/
def handedOut (family : ScopeFamily) : List Step → List String
  | [] => []
  | step :: rest => (family.answer? step).toList ++ (family.perform step).handedOut rest

theorem handedOut_append (family : ScopeFamily) (first second : List Step) :
    family.handedOut (first ++ second) =
      family.handedOut first ++ (first.foldl perform family).handedOut second := by
  induction first generalizing family with
  | nil => rfl
  | cons step rest induction =>
      rw [List.cons_append, handedOut, induction, handedOut, List.append_assoc]
      rfl

variable {history : List Step} {step : Step} {family : ScopeFamily}

theorem stems_concat : stems (history ++ [step]) = stems history ++ step.stem?.toList := by
  rw [stems, List.filterMap_append]
  cases step <;> rfl

theorem handedOut_concat : handedOut {} (history ++ [step]) =
    handedOut {} history ++ ((after history).answer? step).toList := by
  rw [handedOut_append, handedOut, handedOut, List.append_nil]
  rfl

theorem answer?_eq (family : ScopeFamily) (step : Step) :
    family.answer? step =
      step.stem?.map fun stem => SharedScope.numbered stem (family.shared.count stem) := by
  cases step <;> rfl

/-- Only asking for a name of a stem moves the counter of the stem. -/
theorem count_perform (family : ScopeFamily) (step : Step) (stem : String) :
    (family.perform step).shared.count stem =
      family.shared.count stem + step.stem?.toList.count stem := by
  cases step with
  | uniqueName member asked =>
      show (family.shared.uniqueName asked).2.count stem = _
      by_cases same : stem = asked
      · rw [same, SharedScope.count_uniqueName_self]
        simp [Step.stem?]
      · rw [SharedScope.count_uniqueName_of_ne _ same]
        simp [Step.stem?, Ne.symm same]
  | derive | declare | declareShared | ask => rfl

/-- A counter is the number of names asked for. -/
theorem count_after (history : List Step) (stem : String) :
    (after history).shared.count stem = (stems history).count stem := by
  induction history using List.reverseRecOn with
  | nil => rfl
  | append_singleton history step induction =>
      rw [after_concat, count_perform, induction, stems_concat, List.count_append]

theorem length_handedOut (history : List Step) :
    (handedOut {} history).length = (stems history).length := by
  induction history using List.reverseRecOn with
  | nil => rfl
  | append_singleton history step induction =>
      rw [handedOut_concat, stems_concat, List.length_append, List.length_append, induction,
        answer?_eq]
      cases step.stem? <;> rfl

/-- A call is answered with its stem and the number of calls with that stem before it. -/
theorem getElem?_handedOut {call : Nat} {stem : String}
    (asked : (stems history)[call]? = some stem) :
    (handedOut {} history)[call]? =
      some (SharedScope.numbered stem (((stems history).take call).count stem)) := by
  induction history using List.reverseRecOn with
  | nil => cases asked
  | append_singleton history step induction =>
      rw [stems_concat] at asked ⊢
      rw [handedOut_concat]
      rcases Nat.lt_or_ge call (stems history).length with earlier | last
      · rw [List.getElem?_append_left earlier] at asked
        rw [List.getElem?_append_left (by rwa [length_handedOut]),
          List.take_append_of_le_length (Nat.le_of_lt earlier)]
        exact induction asked
      · rw [List.getElem?_append_right last] at asked
        rw [List.getElem?_append_right (by rwa [length_handedOut]), length_handedOut, answer?_eq]
        cases stemAsked : step.stem? with
        | none => simp [stemAsked] at asked
        | some other =>
            rw [stemAsked, Option.toList_some, List.getElem?_singleton] at asked
            split at asked
            · next isFirst =>
                cases asked
                have isLast : call = (stems history).length := by omega
                rw [Option.map_some, Option.toList_some, isFirst, List.getElem?_cons_zero,
                  count_after, isLast, List.take_left]
            · cases asked

/-- Asking for a name raises the count of its stem for every later call. -/
theorem count_take_lt {stems : List String} {call later : Nat} {stem : String} (ahead : call < later)
    (asked : stems[call]? = some stem) :
    (stems.take call).count stem < (stems.take later).count stem := by
  have upTo : stems.take (call + 1) = stems.take call ++ [stem] := by
    rw [List.take_add_one, asked]
    rfl
  have isPart : (stems.take (call + 1)).Sublist (stems.take later) :=
    (List.take_prefix_take_left ahead).sublist
  have counted := isPart.count_le stem
  rw [upTo, List.count_append, List.count_singleton_self] at counted
  exact counted

/-- No name is handed out twice in a family, whatever the stems and whoever asks. Every call is
answered, with its stem, an underscore and the number of calls with that stem before it. The counter
of a stem is the number of calls with it, so that counters of 64 bits are enough for fewer than 2^64
calls. -/
theorem unique_names_never_repeat (history : List Step) :
    (handedOut {} history).Nodup ∧
    (handedOut {} history).length = (stems history).length ∧
    (∀ call stem, (stems history)[call]? = some stem → (handedOut {} history)[call]? =
      some (stem ++ "_" ++ Nat.repr (((stems history).take call).count stem))) ∧
    ∀ stem, (after history).shared.count stem = (stems history).count stem ∧
      (after history).shared.count stem ≤ (stems history).length := by
  have few (stem : String) : (after history).shared.count stem ≤ (stems history).length := by
    rw [count_after]
    exact List.count_le_length
  refine ⟨?_, length_handedOut history, fun _ _ => getElem?_handedOut,
    fun stem => ⟨count_after history stem, few stem⟩⟩
  rw [List.nodup_iff_getElem?_ne_getElem?]
  intro call later ahead bound same
  rw [length_handedOut] at bound
  have asked := List.getElem?_eq_getElem (Nat.lt_trans ahead bound)
  have askedLater := List.getElem?_eq_getElem bound
  rw [getElem?_handedOut asked, getElem?_handedOut askedLater, Option.some.injEq,
    SharedScope.numbered_inj] at same
  rw [← same.1] at same
  exact absurd same.2 (Nat.ne_of_lt (count_take_lt ahead asked))

/-- One stem is what a name of another looks like. -/
example : handedOut {} [.uniqueName 0 "a", .derive 0, .uniqueName 1 "a_0", .uniqueName 1 "a",
    .uniqueName 0 "a_0"] = ["a_0", "a_0_0", "a_1", "a_0_1"] := by
  decide +kernel

end ScopeFamily

end EventSheet
