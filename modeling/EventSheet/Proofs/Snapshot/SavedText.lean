import EventSheet.Proofs.Json.Text
import EventSheet.Proofs.Snapshot.RoundTrip
import EventSheet.Snapshot.Json
namespace EventSheet

/-! # Saved text

The text of a forest is read back up to the greatest nesting of a text. The snapshot, its list
of records and a record take up three levels of it; payloads that need more than the rest are
written, but not read. -/

open Json (Natural NaturalItems NaturalMembers Distinct sorted)

/-! ## Numbers in payloads -/

theorem Expression.natural_toJson (expressions : List Expression) :
    NaturalItems (expressions.map Expression.toJson) := by
  rw [Json.naturalItems_iff]
  intro item isItem
  rcases List.mem_map.mp isItem with ⟨expression, _, same⟩
  rw [← same]
  trivial

mutual
theorem Instruction.natural_toJson : ∀ instruction : Instruction, instruction.toJson.Natural
  | ⟨name, parameters, inverted, nested⟩ => by
      have parametersNatural := Expression.natural_toJson parameters
      have nestedNatural := Instruction.natural_listItems nested
      rw [Instruction.toJson]
      cases parameters.isEmpty <;> cases inverted <;> cases nested.isEmpty <;>
        simp [Natural, NaturalMembers, parametersNatural, nestedNatural]

theorem Instruction.natural_listItems : ∀ instructions : List Instruction,
    NaturalItems (Instruction.listItems instructions)
  | [] => trivial
  | head :: tail => ⟨head.natural_toJson, Instruction.natural_listItems tail⟩
end

namespace Kind

theorem natural_listFields (conditions actions : InstructionList) :
    NaturalMembers (listFields conditions actions) :=
  ⟨Instruction.natural_listItems conditions, Instruction.natural_listItems actions, trivial⟩

theorem Builtin.natural_payload (builtin : Builtin) : builtin.payload.Natural := by
  apply Json.Natural.sorted
  cases builtin with
  | standard standard => exact natural_listFields _ _
  | comment comment => exact ⟨trivial, trivial⟩
  | branch branch =>
      refine ⟨?_, Instruction.natural_listItems _, trivial⟩
      rw [Natural, Json.naturalItems_iff]
      intro item isItem
      rcases List.mem_map.mp isItem with ⟨arm, _, same⟩
      rw [← same]
      exact natural_listFields _ _
  | repetition repetition => exact ⟨trivial, natural_listFields _ _⟩
  | link link => exact ⟨trivial, trivial⟩

end Kind

/-! ## Records -/

namespace EventRecord

open Json.Decoder

def members (record : EventRecord) : List (String × Json) :=
  [("type", .string record.kind)] ++
    (if record.disabled then [("disabled", .bool true)] else []) ++
    (if record.folded then [("folded", .bool true)] else []) ++
    [("depth", .nat record.depth)] ++
    (if record.payload.isNull then [] else [("payload", record.payload)])

def fieldNames : List String := ["type", "disabled", "folded", "depth", "payload"]

theorem distinct_members (record : EventRecord) : Distinct record.members := by
  rw [members, Distinct]
  cases record.disabled <;> cases record.folded <;> cases record.payload.isNull <;> simp

theorem lookup_members (record : EventRecord) :
    (fieldNames.map fun name => Entry.ofOption (record.members.lookup name)) =
      [.present (Json.toDocument (.string record.kind)),
       Entry.ofOption (if !record.disabled then none else some (.bool record.disabled)),
       Entry.ofOption (if !record.folded then none else some (.bool record.folded)),
       .present (Json.toDocument (.nat record.depth)),
       Entry.ofOption (if record.payload.isNull then none else some record.payload)] := by
  rw [members]
  cases record.disabled <;> cases record.folded <;> cases record.payload.isNull <;> rfl

/-- The payload as it is read. -/
def sorted (record : EventRecord) : EventRecord := { record with payload := record.payload.sorted }

theorem free_payload (payload : Json) (levels : Nat) :
    withDefault .null free levels
        (Entry.ofOption (if payload.isNull then none else some payload)) =
      if payload.nesting ≤ levels then some payload.sorted else none := by
  cases payload with
  | null => rfl
  | bool value => exact free_toDocument levels _
  | number value => exact free_toDocument levels _
  | string text => exact free_toDocument levels _
  | array items => exact free_toDocument levels _
  | object members => exact free_toDocument levels _

theorem natural_toJson (record : EventRecord) (shallow : record.depth < UInt64.size)
    (natural : record.payload.Natural) : record.toJson.Natural := by
  rw [toJson]
  cases record.disabled <;> cases record.folded <;> cases record.payload.isNull <;>
    simp [Json.nat, Natural, NaturalMembers, shallow, natural]

/-- A record is read when its payload is not nested too deeply. -/
theorem decode_toJson (record : EventRecord) (shallow : record.depth < UInt64.size)
    (levels : Nat) :
    decode (levels + 1) (Json.toDocument record.toJson) =
      if record.payload.nesting ≤ levels then some record.sorted else none := by
  have whole : record.toJson = .object record.members := rfl
  have found := Json.Decoder.fields?_object record.distinct_members fieldNames
  rw [lookup_members] at found
  rw [fieldNames] at found
  have flagRead : ∀ flag : Bool,
      withDefault false bool levels (Entry.ofOption (if !flag then none else some (.bool flag))) =
        some flag := by
    intro flag
    cases flag <;> rfl
  have kindRead : required string levels (.present (Json.toDocument (.string record.kind))) =
      some record.kind := rfl
  have depthRead : withDefault 0 (natBelow UInt64.size) levels
      (.present (Json.toDocument (.nat record.depth))) = some record.depth :=
    (reads_natBelow shallow).withDefault (Nat.zero_le levels) 0
  rw [whole, decode, Json.Decoder.record, found]
  simp only [Option.bind_some, kindRead, flagRead, depthRead, free_payload,
    Option.bind_eq_bind]
  split <;> rfl

end EventRecord

/-! ## Snapshots -/

namespace Snapshot

open Json.Decoder

/-- The levels of a text behind those of the snapshot, its list of records and a record. -/
def payloadNesting : Nat := Json.greatestNesting - 3

theorem decode_records {records : List EventRecord}
    (shallow : ∀ record ∈ records, record.depth < UInt64.size) (levels : Nat) :
    (Json.itemDocuments (records.map EventRecord.toJson)).mapM (EventRecord.decode (levels + 1)) =
      if ∀ record ∈ records, record.payload.nesting ≤ levels then
        some (records.map EventRecord.sorted)
      else none := by
  rw [Json.itemDocuments_eq_map]
  induction records with
  | nil => rfl
  | cons head tail induction =>
      rcases List.forall_mem_cons.mp shallow with ⟨headShallow, tailShallow⟩
      rw [List.map_cons, List.map_cons, List.mapM_cons, head.decode_toJson headShallow levels,
        induction tailShallow]
      simp only [List.forall_mem_cons]
      by_cases headFits : head.payload.nesting ≤ levels
      · simp only [headFits, ↓reduceIte, true_and]
        split <;> rfl
      · simp only [headFits, ↓reduceIte, false_and]
        rfl

def members (snapshot : Snapshot) : List (String × Json) :=
  [("version", .nat snapshot.version),
    ("events", .array (snapshot.events.map EventRecord.toJson))]

/-- The text of a snapshot is read back when no payload is nested too deeply. -/
theorem ofText?_pretty {snapshot : Snapshot} (version : snapshot.version < UInt32.size)
    (shallow : ∀ record ∈ snapshot.events, record.depth < UInt64.size)
    (natural : ∀ record ∈ snapshot.events, record.payload.Natural) :
    ofText? decode (Json.pretty snapshot.toJson) =
      if ∀ record ∈ snapshot.events, record.payload.nesting ≤ payloadNesting then
        some { snapshot with events := snapshot.events.map EventRecord.sorted }
      else none := by
  have naturalText : snapshot.toJson.Natural := by
    refine ⟨Nat.lt_trans version (by decide), ?_, trivial⟩
    rw [Natural, Json.naturalItems_iff]
    intro item isItem
    rcases List.mem_map.mp isItem with ⟨record, isRecord, same⟩
    rw [← same]
    exact record.natural_toJson (shallow record isRecord) (natural record isRecord)
  have distinct : Distinct snapshot.members := (by decide : ["version", "events"].Nodup)
  have found : fields? ["version", "events"] (Json.toDocument snapshot.toJson) =
      some [.present (Json.toDocument (.nat snapshot.version)),
        .present (Json.toDocument (.array (snapshot.events.map EventRecord.toJson)))] :=
    fields?_object distinct ["version", "events"]
  have versionRead : required (natBelow UInt32.size) (payloadNesting + 2)
      (.present (Json.toDocument (.nat snapshot.version))) = some snapshot.version :=
    (reads_natBelow version).required (Nat.zero_le _)
  have recordsRead : required (list EventRecord.decode) (payloadNesting + 2)
      (.present (Json.toDocument (.array (snapshot.events.map EventRecord.toJson)))) = _ :=
    decode_records shallow payloadNesting
  have levels : Json.greatestNesting = payloadNesting + 3 := rfl
  rw [ofText?, Json.ofText?_pretty naturalText, Option.bind_some, decode, levels, record, found,
    Option.bind_some]
  simp only [versionRead, recordsRead, Option.bind_eq_bind, Option.bind_some]
  split <;> rfl

end Snapshot

/-! ## Forests -/

namespace Forest

theorem sorted_record (node : Node Kind.Builtin) (depth : Nat) :
    (node.record depth).sorted = node.record depth := by
  have same : (node.record depth).payload.sorted = (node.record depth).payload :=
    Json.sorted_sorted _
  rw [EventRecord.sorted, same]

/-- The payloads of all events fit in a text. -/
def PayloadsFit (forest : Forest Kind.Builtin) : Prop :=
  ∀ visit ∈ Forest.walk forest, visit.1.payload.nesting ≤ Snapshot.payloadNesting

instance (forest : Forest Kind.Builtin) : Decidable (PayloadsFit forest) :=
  inferInstanceAs (Decidable (∀ visit ∈ Forest.walk forest, _))

theorem ofText?_saveJson {forest : Forest Kind.Builtin}
    (shallow : ∀ visit ∈ Forest.walk forest, visit.2 < UInt64.size) :
    Json.Decoder.ofText? Snapshot.decode (Forest.saveJson forest) =
      if PayloadsFit forest then some (Forest.snapshot forest) else none := by
  have version : (Forest.snapshot forest).version < UInt32.size := (by decide : 1 < UInt32.size)
  have records : (Forest.snapshot forest).events =
      (Forest.walk forest).map fun visit => visit.1.record visit.2 := by
    rw [Forest.snapshot_eq_walk]
    rfl
  have kept : (Forest.snapshot forest).events.map EventRecord.sorted =
      (Forest.snapshot forest).events := by
    rw [records, List.map_map]
    exact List.map_congr_left fun visit _ => sorted_record visit.1 visit.2
  have fits : (∀ record ∈ (Forest.snapshot forest).events,
      record.payload.nesting ≤ Snapshot.payloadNesting) = PayloadsFit forest := by
    rw [records, List.forall_mem_map]
    rfl
  rw [saveJson, Snapshot.ofText?_pretty version, kept]
  · simp only [fits]
  · rw [records, List.forall_mem_map]
    exact shallow
  · rw [records, List.forall_mem_map]
    exact fun visit _ => Kind.Builtin.natural_payload visit.1.behavior

theorem loadJson_saveJson {forest : Forest Kind.Builtin} (owned : Forest.Owned forest)
    (shallow : ∀ visit ∈ Forest.walk forest, visit.2 < UInt64.size) (population : Population) :
    Forest.loadJson (Registry.builtin id) (Forest.saveJson forest) population =
      if PayloadsFit forest then
        (.ok (Forest.renew forest population).1, (Forest.renew forest population).2)
      else (.error .malformed, population) := by
  rw [loadJson, ofText?_saveJson shallow]
  by_cases fit : PayloadsFit forest
  · rw [if_pos fit, if_pos fit]
    simp only [bind, StateT.bind, restore_snapshot_eq Registry.builtin_create owned]
    rfl
  · rw [if_neg fit, if_neg fit]
    rfl

/-- What is saved is loaded, alike, when every payload fits in a text. Otherwise there is nothing
to load, and nothing is made. -/
theorem load_undoes_save_iff (forest : Forest Kind.Builtin) (owned : Forest.Owned forest)
    (shallow : ∀ visit ∈ Forest.walk forest, visit.2 < UInt64.size) (population : Population) :
    ((∃ restored after, Forest.loadJson (Registry.builtin id) (Forest.saveJson forest) population =
        (.ok restored, after) ∧ Forest.Alike forest restored) ↔ PayloadsFit forest) ∧
      (¬ PayloadsFit forest →
        Forest.loadJson (Registry.builtin id) (Forest.saveJson forest) population =
          (.error .malformed, population)) := by
  rw [loadJson_saveJson owned shallow]
  refine ⟨⟨?_, ?_⟩, fun unfit => if_neg unfit⟩
  · intro loaded
    rcases loaded with ⟨restored, after, isLoaded, _⟩
    apply Decidable.byContradiction
    intro unfit
    rw [if_neg unfit] at isLoaded
    cases isLoaded
  · intro fit
    rw [if_pos fit]
    exact ⟨_, _, rfl, alike_renew forest population⟩

end Forest

theorem nightWatch_saved : Forest.Owned nightWatch ∧
    (∀ visit ∈ Forest.walk nightWatch, visit.2 < UInt64.size) ∧
    ∃ restored after, Forest.loadJson (Registry.builtin id) (Forest.saveJson nightWatch) {} =
      (.ok restored, after) ∧ Forest.Alike nightWatch restored := by
  have shallow : ∀ visit ∈ Forest.walk nightWatch, visit.2 < UInt64.size := by decide
  have fit : Forest.PayloadsFit nightWatch := by decide
  exact ⟨owned_nightWatch, shallow,
    (Forest.load_undoes_save_iff nightWatch owned_nightWatch shallow {}).1.mpr fit⟩

/-- An instruction with `levels` instructions nested in one another below it. -/
def nestedCalls : Nat → Instruction
  | 0 => { name := "call" }
  | levels + 1 => { name := "call", subInstructions := [nestedCalls levels] }

theorem nesting_nestedCalls (levels : Nat) :
    (nestedCalls levels).toJson.sorted.nesting = 2 * levels + 1 := by
  induction levels with
  | zero => rfl
  | succ levels induction =>
      have inOrder : Json.InNameOrder [("name", Json.string "call"),
          ("sub_instructions", .array [(nestedCalls levels).toJson.sorted])] :=
        List.pairwise_pair.mpr (by decide : "name" < "sub_instructions")
      have whole : (nestedCalls (levels + 1)).toJson.sorted =
          .object [("name", .string "call"),
            ("sub_instructions", .array [(nestedCalls levels).toJson.sorted])] :=
        congrArg Json.object (Json.sortMembers_of_inNameOrder inOrder)
      rw [Json.nesting] at induction
      rw [whole, Json.nesting]
      simp only [Json.toDocument, Json.memberDocuments, Json.itemDocuments, Json.Document.depth,
        Json.Document.membersDepth, Json.Document.itemsDepth, induction]
      omega

/-- A sheet of one event with 62 instructions nested in one another. -/
def deepPlan : Forest Kind.Builtin :=
  [{ event := { id := 1, behavior := .standard { actions := [nestedCalls 61] } } }]

/-- The sheet is saved, but the text is refused when it is loaded. -/
theorem deepPlan_lost : Forest.loadJson (Registry.builtin id) (Forest.saveJson deepPlan) {} =
    (.error .malformed, {}) := by
  have owned : Forest.Owned deepPlan := ⟨⟨fun _ => rfl, trivial⟩, trivial⟩
  have shallow : ∀ visit ∈ Forest.walk deepPlan, visit.2 < UInt64.size :=
    List.forall_mem_cons.mpr ⟨by decide, fun _ isVisit => nomatch isVisit⟩
  have unfit : ¬ Forest.PayloadsFit deepPlan := by
    intro fit
    have within : Json.nesting (.object [("actions", .array [(nestedCalls 61).toJson.sorted]),
        ("conditions", .array [])]) ≤ 124 := fit _ List.mem_cons_self
    have inside := Json.nesting_lt_object (List.lookup_cons_self : List.lookup "actions"
      [("actions", Json.array [(nestedCalls 61).toJson.sorted]), ("conditions", .array [])] = _)
    have below := Json.nesting_lt_array (List.mem_singleton_self (nestedCalls 61).toJson.sorted)
    rw [nesting_nestedCalls] at below
    omega
  rw [Forest.loadJson_saveJson owned shallow, if_neg unfit]

end EventSheet
