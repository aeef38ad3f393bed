import EventSheet.Proofs.Storage.Files
import EventSheet.Proofs.Toml.Documents
import EventSheet.Settings.File
namespace EventSheet.Settings

/-! # Saved settings

Settings can be saved when their numbers are integers of TOML, and what is saved is loaded. A number
in the upper half of what settings may hold is no such integer. -/

open Toml

/-! ## Sections -/

/-- The numbers are integers of TOML, which are signed. -/
def FitsToml (settings : Settings) : Prop :=
  settings.output.indentWidth.toNat < 2 ^ 63 ∧ settings.limits.maxNestingDepth.toNat < 2 ^ 63 ∧
    settings.limits.maxLinkExpansions.toNat < 2 ^ 63

instance (settings : Settings) : Decidable settings.FitsToml :=
  inferInstanceAs (Decidable (_ ∧ _ ∧ _))

def naturalEntry (name : String) (value : UInt64) : Entry :=
  ⟨name, Nat.repr value.toNat, .integer value.toNat⟩

def stringEntry (name text : String) : Entry := ⟨name, printString text, .string text⟩

def booleanEntry (name : String) (value : Bool) : Entry := ⟨name, printBool value, .boolean value⟩

/-- The sections settings are saved as. -/
def sections (settings : Settings) : List Section :=
  [⟨"output",
      [naturalEntry "indent_width" settings.output.indentWidth,
        stringEntry "header" settings.output.header,
        stringEntry "entry_point" settings.output.entryPoint]⟩,
    ⟨"limits",
      [naturalEntry "max_nesting_depth" settings.limits.maxNestingDepth,
        naturalEntry "max_link_expansions" settings.limits.maxLinkExpansions]⟩,
    ⟨"profiling", [booleanEntry "emit_hooks" settings.profiling.emitHooks]⟩]

theorem integerInRange_iff (value : Nat) : integerInRange value = true ↔ value < 2 ^ 63 := by
  have least : Int64.minValue.toInt = -2 ^ 63 := rfl
  have greatest : Int64.maxValue.toInt = 2 ^ 63 - 1 := rfl
  rw [integerInRange, Bool.and_eq_true, decide_eq_true_eq, decide_eq_true_eq, least, greatest]
  omega

theorem printNat?_of_lt {value : Nat} (fits : value < 2 ^ 63) :
    printNat? value = some (Nat.repr value) := by
  rw [printNat?, if_pos ((integerInRange_iff value).mpr fits)]

theorem printNat?_of_le {value : Nat} (large : 2 ^ 63 ≤ value) : printNat? value = none := by
  rw [printNat?, if_neg]
  rw [integerInRange_iff]
  exact Nat.not_lt.mpr large

theorem toToml?_of_fits {settings : Settings} (fits : settings.FitsToml) :
    settings.toToml? = some (printDocument settings.sections) := by
  rcases fits with ⟨indentWidth, nestingDepth, linkExpansions⟩
  rw [toToml?, OutputSettings.toToml?, LimitSettings.toToml?, printNat?_of_lt indentWidth,
    printNat?_of_lt nestingDepth, printNat?_of_lt linkExpansions]
  rfl

theorem toToml?_of_not_fits {settings : Settings} (exceeds : ¬ settings.FitsToml) :
    settings.toToml? = none := by
  rw [FitsToml] at exceeds
  rw [toToml?, OutputSettings.toToml?, LimitSettings.toToml?]
  by_cases indentWidth : settings.output.indentWidth.toNat < 2 ^ 63
  · rw [printNat?_of_lt indentWidth]
    by_cases nestingDepth : settings.limits.maxNestingDepth.toNat < 2 ^ 63
    · rw [printNat?_of_lt nestingDepth, printNat?_of_le (by omega)]
      rfl
    · rw [printNat?_of_le (Nat.not_lt.mp nestingDepth)]
      rfl
  · rw [printNat?_of_le (Nat.not_lt.mp indentWidth)]
    rfl

theorem naturalEntry_readsBack {name : String} (bare : IsBare name) {value : UInt64}
    (fits : value.toNat < 2 ^ 63) : (naturalEntry name value).ReadsBack :=
  Entry.readsBack_natural bare ((integerInRange_iff _).mpr fits)

theorem sections_readBack {settings : Settings} (fits : settings.FitsToml) :
    ∀ part ∈ settings.sections, part.ReadsBack := by
  rcases fits with ⟨indentWidth, nestingDepth, linkExpansions⟩
  have output : IsBare "output" := by decide
  have indent : IsBare "indent_width" := by decide
  have header : IsBare "header" := by decide
  have entryPoint : IsBare "entry_point" := by decide
  have limits : IsBare "limits" := by decide
  have depth : IsBare "max_nesting_depth" := by decide
  have links : IsBare "max_link_expansions" := by decide
  have profiling : IsBare "profiling" := by decide
  have hooks : IsBare "emit_hooks" := by decide
  simp only [sections, List.forall_mem_cons, List.not_mem_nil, false_implies, implies_true,
    and_true]
  refine ⟨⟨output, ?_, ?_⟩, ⟨limits, ?_, ?_⟩, ⟨profiling, ?_, ?_⟩⟩
  · simp only [List.forall_mem_cons, List.not_mem_nil, false_implies, implies_true, and_true]
    exact ⟨naturalEntry_readsBack indent indentWidth, Entry.readsBack_string header _,
      Entry.readsBack_string entryPoint _⟩
  · show ["indent_width", "header", "entry_point"].Nodup
    decide
  · simp only [List.forall_mem_cons, List.not_mem_nil, false_implies, implies_true, and_true]
    exact ⟨naturalEntry_readsBack depth nestingDepth, naturalEntry_readsBack links linkExpansions⟩
  · show ["max_nesting_depth", "max_link_expansions"].Nodup
    decide
  · simp only [List.forall_mem_cons, List.not_mem_nil, false_implies, implies_true, and_true]
    exact Entry.readsBack_boolean hooks _
  · exact List.pairwise_singleton _ _

theorem word64?_toNat (value : UInt64) : word64? (.integer value.toNat) = some value := by
  simp [word64?]

/-- The text settings are saved as is read as these settings. -/
theorem ofToml?_printDocument {settings : Settings} (fits : settings.FitsToml) :
    ofToml? (printDocument settings.sections) = some settings := by
  have distinct : (settings.sections.map Section.name).Nodup := by
    show ["output", "limits", "profiling"].Nodup
    decide
  have output : OutputSettings.ofToml? (.table
      [("indent_width", .integer settings.output.indentWidth.toNat),
        ("header", .string settings.output.header),
        ("entry_point", .string settings.output.entryPoint)]) = some settings.output := by
    simp [OutputSettings.ofToml?, fields?, OutputSettings.fieldNames, Toml.withDefault,
      word64?_toNat, string?, List.lookup_cons]
  have limits : LimitSettings.ofToml? (.table
      [("max_nesting_depth", .integer settings.limits.maxNestingDepth.toNat),
        ("max_link_expansions", .integer settings.limits.maxLinkExpansions.toNat)]) =
          some settings.limits := by
    simp [LimitSettings.ofToml?, fields?, LimitSettings.fieldNames, Toml.withDefault,
      word64?_toNat, List.lookup_cons]
  have profiling : ProfilingSettings.ofToml? (.table
      [("emit_hooks", .boolean settings.profiling.emitHooks)]) = some settings.profiling := rfl
  rw [ofToml?, ofText?_printDocument (sections_readBack fits) distinct]
  simp [fields?, fieldNames, sections, naturalEntry, stringEntry, booleanEntry, Toml.withDefault,
    List.lookup_cons, output, limits, profiling]

/-! ## Files -/

section Files

variable {settings : Settings} {path : String} {storage prepared after : Storage}

theorem save_of_unprepared {directory : String}
    (refused : Storage.prepareParent path storage = (.error directory, prepared)) :
    save settings path storage =
      (.error ⟨.io, ["Failed to create config directory " ++ directory]⟩, prepared) := by
  simp only [save, bind, StateT.bind, refused]
  rfl

section Prepared

variable (made : Storage.prepareParent path storage = (.ok (), prepared))
include made

theorem save_of_unprinted (unprinted : settings.toToml? = none) :
    save settings path storage =
      (.error ⟨.toml, ["Failed to serialize compiler settings"]⟩, prepared) := by
  simp only [save, bind, StateT.bind, made, unprinted]
  rfl

theorem save_of_unwritten {text : String} (printed : settings.toToml? = some text)
    (refused : prepared.writeText? path text = none) :
    save settings path storage =
      (.error ⟨.io, ["Failed to write compiler settings " ++ path]⟩, prepared) := by
  simp only [save, bind, StateT.bind, made, printed, get, getThe, MonadStateOf.get, StateT.get,
    pure, refused]
  rfl

theorem save_of_written {text : String} (printed : settings.toToml? = some text)
    (written : prepared.writeText? path text = some after) :
    save settings path storage = (.ok (), after) := by
  simp only [save, bind, StateT.bind, made, printed, get, getThe, MonadStateOf.get, StateT.get,
    pure, written]
  rfl

end Prepared

theorem prepared_of_writable (writable : storage.isWritable path = true) :
    ∃ prepared, Storage.prepareParent path storage = (.ok (), prepared) ∧
      ∀ text, ∃ after, prepared.writeText? path text = some after := by
  rw [Storage.isWritable] at writable
  split at writable
  · next prepared same =>
      refine ⟨prepared, same, fun text => ?_⟩
      split at writable
      · next location resolved =>
          exact ⟨_, Storage.write?_eq_some_iff.mpr
            ⟨location, resolved, Bool.not_eq_true' _ |>.mp writable, rfl⟩⟩
      · cases writable
  · cases writable

/-- Only the directories of the path are there afterwards when the numbers do not fit. -/
theorem save_of_not_fits (writable : storage.isWritable path = true)
    (exceeds : ¬ settings.FitsToml) :
    (save settings path storage).1 = .error ⟨.toml, ["Failed to serialize compiler settings"]⟩ ∧
      Storage.SameFiles storage (save settings path storage).2 := by
  rcases prepared_of_writable writable with ⟨prepared, made, -⟩
  have files := Storage.sameFiles_prepareParent path storage
  rw [made] at files
  rw [save_of_unprinted made (toToml?_of_not_fits exceeds)]
  exact ⟨rfl, files⟩

theorem save_of_fits (writable : storage.isWritable path = true) (fits : settings.FitsToml) :
    (save settings path storage).1 = .ok () ∧
      load (save settings path storage).2 path = .ok settings := by
  rcases prepared_of_writable writable with ⟨prepared, made, write⟩
  rcases write (printDocument settings.sections) with ⟨after, written⟩
  rw [save_of_written made (toToml?_of_fits fits) written, load,
    Storage.readText?_of_writeText? written]
  simp only [ofToml?_printDocument fits, and_self]

theorem writable_of_save (saved : (save settings path storage).1 = .ok ()) :
    storage.isWritable path = true := by
  cases made : Storage.prepareParent path storage with | mk made? prepared
  cases made? with
  | error directory =>
      rw [save_of_unprepared made] at saved
      cases saved
  | ok =>
      cases printed : settings.toToml? with
      | none =>
          rw [save_of_unprinted made printed] at saved
          cases saved
      | some text =>
          cases written : prepared.writeText? path text with
          | none =>
              rw [save_of_unwritten made printed written] at saved
              cases saved
          | some after =>
              rcases Storage.write?_eq_some_iff.mp written with
                ⟨location, resolved, notDirectory, -⟩
              simp only [Storage.isWritable, made, resolved, notDirectory, Bool.not_false]

end Files

/-- Settings can be saved where a file can be written, as long as their numbers are integers of
TOML, and then they are loaded again. When the numbers are too large, saving fails and every file
stays as it is. -/
theorem save_succeeds_iff (settings : Settings) (path : String) (storage : Storage) :
    ((save settings path storage).1 = .ok () ↔
      storage.isWritable path = true ∧ settings.FitsToml) ∧
    ((save settings path storage).1 = .ok () →
      load (save settings path storage).2 path = .ok settings) ∧
    (storage.isWritable path = true → ¬ settings.FitsToml →
      (save settings path storage).1 =
        .error ⟨.toml, ["Failed to serialize compiler settings"]⟩ ∧
      Storage.SameFiles storage (save settings path storage).2) := by
  have needed (saved : (save settings path storage).1 = .ok ()) :
      storage.isWritable path = true ∧ settings.FitsToml := by
    have writable := writable_of_save saved
    refine ⟨writable, ?_⟩
    by_contra exceeds
    rw [(save_of_not_fits writable exceeds).1] at saved
    cases saved
  refine ⟨⟨needed, fun enough => (save_of_fits enough.1 enough.2).1⟩, fun saved => ?_,
    save_of_not_fits⟩
  rcases needed saved with ⟨writable, fits⟩
  exact (save_of_fits writable fits).2

/-- Settings of another width, with a header over two lines. -/
def twoLineHeader : Settings :=
  { output := { indentWidth := 2, header := "// \"first\"\n// second\\" } }

theorem twoLineHeader_saved :
    Storage.isWritable {} "configs/events.toml" = true ∧ twoLineHeader.FitsToml ∧
      load (save twoLineHeader "configs/events.toml" {}).2 "configs/events.toml" =
        .ok twoLineHeader := by
  have writable : Storage.isWritable {} "configs/events.toml" = true := by decide +kernel
  have fits : twoLineHeader.FitsToml := by decide
  rcases save_succeeds_iff twoLineHeader "configs/events.toml" {} with ⟨succeeds, loaded, -⟩
  exact ⟨writable, fits, loaded (succeeds.mpr ⟨writable, fits⟩)⟩

/-- Settings with the largest nesting limit there is, which no sheet reaches. -/
def boundlessNesting : Settings :=
  { limits := { maxNestingDepth := UInt64.ofNat (2 ^ 64 - 1) } }

/-- The path is writable, and yet these settings are not saved. -/
theorem boundlessNesting_refused :
    Storage.isWritable {} "events.toml" = true ∧
      (save boundlessNesting "events.toml" {}).1 ≠ .ok () := by
  decide +kernel

end EventSheet.Settings
