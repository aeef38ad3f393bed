import EventSheet.Proofs.Lineage.Numbering
import EventSheet.Proofs.Lineage.Session
import Mathlib.Algebra.Ring.Nat
namespace EventSheet

/-! # Ids name one node for good

No two nodes in a session have the same id, and no id is given out again, whatever is made,
restored, refused, included or destroyed meanwhile. As long as fewer than `2 ^ 64` nodes are made,
machine words tell their ids apart as well. -/

/-! ## Ids given out -/

namespace Population

/-- The id was given to a node, whether that one still exists or not. -/
def HandedOut (population : Population) (id : NodeId) : Prop := (population.identity? id).isSome

theorem handedOut_iff {population : Population} {id : NodeId} :
    population.HandedOut id ↔ 0 < id ∧ id < population.nextId := by
  cases id with
  | zero => simp [HandedOut, identity?]
  | succ index => simp [HandedOut, identity?, nextId]

/-- Only the id that a new node gets is given out. -/
theorem handedOut_enroll {population : Population} {sample : Sample} {id : NodeId} :
    (enroll sample population).2.HandedOut id ↔
      population.HandedOut id ∨ id = (enroll sample population).1 := by
  rw [HandedOut, identity?_enroll, HandedOut]
  by_cases new : id = population.nextId
  · simp [new, enroll]
  · simp [new, enroll]

/-- Ids below `2 ^ 64` are told apart by their words. -/
theorem nodup_words {ids : List NodeId} (once : ids.Nodup) (fit : ∀ id ∈ ids, id < 2 ^ 64) :
    (ids.map UInt64.ofNat).Nodup := by
  apply once.map_on
  intro left isLeft right isRight same
  have words := congrArg UInt64.toNat same
  rwa [UInt64.toNat_ofNat_of_lt' (fit left isLeft), UInt64.toNat_ofNat_of_lt' (fit right isRight)]
    at words

/-- A node gets an id that was given to none before, and what is cloned or restored at once gets
consecutive ids in pre-order. A restore that is refused uses ids up, and that is all it does. -/
structure Numbers (β : Type) [EventKind β] (population : Population) : Prop where
  made : ∀ sample, ¬population.HandedOut (enroll sample population).1 ∧
    ∀ id, (enroll sample population).2.HandedOut id ↔
      population.HandedOut id ∨ id = (enroll sample population).1
  node : ∀ (node : Node β) (remembering : Bool),
    ((if remembering then node.cloneRemembering else node.clone) population).1.ids =
      List.range' population.nextId node.count
  forest : ∀ (forest : Forest β) (remembering : Bool),
    Forest.ids ((if remembering then Forest.cloneRemembering forest else Forest.clone forest)
        population).1 =
      List.range' population.nextId (Forest.count forest)
  restored : ∀ (registry : Registry β) (snapshot : Snapshot) forest,
    (snapshot.restore registry population).1 = .ok forest →
      Forest.ids forest = List.range' population.nextId snapshot.events.length
  refused : ∀ (registry : Registry β) (snapshot : Snapshot) error,
    (snapshot.restore registry population).1 = .error error →
      population.nextId ≤ (snapshot.restore registry population).2.nextId ∧
        (snapshot.restore registry population).2.isAlive = population.isAlive

theorem Accounts.numbers {β : Type} [EventKind β] {population : Population} {bonds : List Bond}
    (accounts : population.Accounts bonds) : population.Numbers β where
  made := by
    intro sample
    refine ⟨?_, fun _ => handedOut_enroll⟩
    intro handedOut
    exact Nat.lt_irrefl _ (handedOut_iff.mp handedOut).2
  node := fun node remembering => node.ids_clone remembering population
  forest := fun forest remembering => Forest.ids_clone forest remembering population
  restored := fun _ _ _ restored => Snapshot.ids_of_restore restored
  refused := by
    intro registry snapshot error refused
    have exchange := snapshot.restore_exchange registry population
    rcases outcome : snapshot.restore registry population with ⟨result, after⟩
    rw [outcome] at refused exchange
    subst refused
    refine ⟨exchange.grows, ?_⟩
    funext id
    rw [Bool.eq_iff_iff, (exchange.accounts bonds accounts).isAlive_iff, accounts.isAlive_iff]
    rfl

end Population

/-! ## Sessions -/

namespace Session

variable {β : Type} [Behavior β]

/-- Nodes in a session are told apart by their ids, now and later. -/
structure Distinguished (session : Session β) : Prop where
  once : session.ids.Nodup
  /-- Wherever a node is, it is in the session. -/
  isAlive_iff : ∀ id, session.population.isAlive id = true ↔ id ∈ session.ids
  lt_nextId : ∀ id, session.population.HandedOut id → id < session.population.nextId
  words : session.population.nextId ≤ 2 ^ 64 → (session.ids.map UInt64.ofNat).Nodup
  words_lt : session.population.nextId < 2 ^ 64 → ∀ id, session.population.HandedOut id →
    UInt64.ofNat id < UInt64.ofNat session.population.nextId
  numbers : session.population.Numbers β

theorem WellKept.distinguished {session : Session β} (kept : session.WellKept) :
    session.Distinguished where
  once := kept.nodup_ids
  isAlive_iff := kept.isAlive_iff
  lt_nextId := fun _ handedOut => (Population.handedOut_iff.mp handedOut).2
  words := by
    intro fit
    apply Population.nodup_words kept.nodup_ids
    exact fun id isNode => Nat.lt_of_lt_of_le (kept.lt_nextId isNode) fit
  words_lt := by
    intro fits id handedOut
    have below := (Population.handedOut_iff.mp handedOut).2
    rw [UInt64.lt_iff_toNat_lt, UInt64.toNat_ofNat_of_lt' (Nat.lt_trans below fits),
      UInt64.toNat_ofNat_of_lt' fits]
    exact below
  numbers := kept.accounts.numbers

/-- Whatever was done, nodes are told apart by their ids; and whatever is done later, an id that
was given out is below the next one, and is that of no node any more once its node is gone. -/
theorem ids_for_good (keeps : Behavior.KeepsAccounts β) (history later : List (Operation β)) :
    (after history).Distinguished ∧
      ∀ id, (after history).population.HandedOut id →
        (after (history ++ later)).population.HandedOut id ∧
          id < (after (history ++ later)).population.nextId ∧
          (id ∉ (after history).ids → id ∉ (after (history ++ later)).ids) := by
  have kept : (after history).WellKept := (wellKept_foldl keeps history {} wellKept_empty).1
  refine ⟨kept.distinguished, ?_⟩
  intro id handedOut
  have lasts := (wellKept_foldl keeps later _ kept).2
  rw [← after_append] at lasts
  rcases Population.handedOut_iff.mp handedOut with ⟨positive, below⟩
  have stillBelow := Nat.lt_of_lt_of_le below lasts.grows
  refine ⟨Population.handedOut_iff.mpr ⟨positive, stillBelow⟩, stillBelow, ?_⟩
  intro gone isNode
  rw [← map_fst_bonds] at gone isNode
  rcases List.mem_map.mp isNode with ⟨bond, isBond, rfl⟩
  rcases lasts.known bond isBond with wasBond | new
  · exact gone (List.mem_map_of_mem wasBond)
  · exact Nat.not_le_of_lt below new

/-- A verse is put into a sheet that is cloned, and a second restore is refused at its second
record; then the first sheet is dropped. -/
def recast : List (Operation Kind.Builtin) :=
  [.build (.standard { actions := [{ name := "sing" }] }) [] "verse",
    .gather ["verse"] "song",
    .cloneForest ⟨.sheet "song", []⟩ true "cover",
    .restore { factories := [(Kind.Comment.kindName, fun _ => .ok (.comment {}))] }
      (.current [{ kind := Kind.Comment.kindName }, { kind := Kind.Comment.kindName, depth := 2 }])
      "notes",
    .drop (.sheet "song"),
    .build (.comment {}) [] "coda"]

theorem ids_for_good_recast :
    Behavior.KeepsAccounts Kind.Builtin ∧ (after recast).Distinguished ∧
      (after recast).ids = [2, 4] ∧ (after recast).population.nextId = 5 ∧
      ∀ later, 1 ∉ (after (recast ++ later)).ids := by
  have ids : (after recast).ids = [2, 4] := by decide +kernel
  have nextId : (after recast).population.nextId = 5 := by decide +kernel
  refine ⟨Kind.Builtin.keepsAccounts, (ids_for_good Kind.Builtin.keepsAccounts recast []).1, ids,
    nextId, ?_⟩
  intro later
  have handedOut : (after recast).population.HandedOut 1 := by
    rw [Population.handedOut_iff, nextId]
    decide
  apply ((ids_for_good Kind.Builtin.keepsAccounts recast later).2 1 handedOut).2.2
  rw [ids]
  decide

end Session

end EventSheet
