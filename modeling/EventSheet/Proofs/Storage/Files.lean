import EventSheet.Storage
namespace EventSheet.Storage

/-! # Files

What is written to a file is read from it. Making directories leaves every file as it is. -/

variable {storage : Storage} {location other : Location} {path : String}

/-! ## Entries -/

theorem entryAt?_setEntry_self (entry : Entry) (inside : location.names.isEmpty = false) :
    (storage.setEntry location entry).entryAt? location = some entry := by
  have removed :
      (storage.entries.filter fun other => other.1 ≠ location).lookup location = none := by
    rw [List.lookup_eq_none_iff]
    intro member isMember
    rw [bne_iff_ne]
    exact (of_decide_eq_true (List.mem_filter.mp isMember).2).symm
  rw [entryAt?, inside, if_neg Bool.false_ne_true, setEntry, List.lookup_append, removed,
    Option.none_or, List.lookup_cons_self]

theorem lookup_filter_of_ne {entries : List (Location × Entry)} (distinct : other ≠ location) :
    (entries.filter fun entry => entry.1 ≠ location).lookup other = entries.lookup other := by
  induction entries with
  | nil => rfl
  | cons head tail induction =>
      rcases head with ⟨first, entry⟩
      rw [List.filter_cons]
      split
      · rw [List.lookup_cons, List.lookup_cons, induction]
      · next removed =>
          have isLocation : first = location := by simpa using removed
          have unequal : (other == first) = false := beq_false_of_ne (isLocation ▸ distinct)
          rw [List.lookup_cons, unequal, induction]

theorem entryAt?_setEntry_of_ne (entry : Entry) (distinct : other ≠ location) :
    (storage.setEntry location entry).entryAt? other = storage.entryAt? other := by
  have unequal : (other == location) = false := beq_false_of_ne distinct
  rw [entryAt?, entryAt?, setEntry, List.lookup_append, lookup_filter_of_ne distinct,
    List.lookup_cons, unequal, List.lookup_nil, Option.or_none]

theorem names_of_not_directory (notDirectory : storage.isDirectory location = false) :
    location.names.isEmpty = false := by
  rw [isDirectory, entryAt?] at notDirectory
  cases isTop : location.names.isEmpty with
  | false => rfl
  | true =>
      rw [isTop] at notDirectory
      cases notDirectory

/-! ## Writing and reading -/

/-- A file does not take the place of a directory, so the directories stay the same. -/
theorem isDirectory_setFile (notDirectory : storage.isDirectory location = false)
    (bytes : ByteArray) (other : Location) :
    (storage.setEntry location (.file bytes)).isDirectory other = storage.isDirectory other := by
  by_cases same : other = location
  · subst same
    rw [notDirectory, isDirectory,
      entryAt?_setEntry_self _ (names_of_not_directory notDirectory)]
  · rw [isDirectory, isDirectory, entryAt?_setEntry_of_ne _ same]

theorem follow?_setFile (notDirectory : storage.isDirectory location = false)
    (bytes : ByteArray) (start : Location) (names : List String) :
    (storage.setEntry location (.file bytes)).follow? start names =
      storage.follow? start names := by
  induction names generalizing start with
  | nil => rfl
  | cons name rest induction =>
      rw [follow?, follow?, isDirectory_setFile notDirectory]
      split
      · exact induction _
      · rfl

theorem write?_eq_some_iff {bytes : ByteArray} {after : Storage} :
    storage.write? path bytes = some after ↔
      ∃ location, storage.resolve? path = some location ∧
        storage.isDirectory location = false ∧ after = storage.setEntry location (.file bytes) := by
  rw [write?]
  cases storage.resolve? path with
  | none => simp
  | some location =>
      cases isDirectory : storage.isDirectory location with
      | true => simp [isDirectory]
      | false => simp [isDirectory, @eq_comm _ after]

theorem read?_of_write? {bytes : ByteArray} {after : Storage}
    (written : storage.write? path bytes = some after) : after.read? path = some bytes := by
  rcases write?_eq_some_iff.mp written with ⟨location, resolved, notDirectory, rfl⟩
  have stays : (storage.setEntry location (.file bytes)).resolve? path = some location := by
    rw [resolve?] at resolved ⊢
    rw [follow?_setFile notDirectory]
    exact resolved
  rw [read?, stays, Option.bind_some,
    entryAt?_setEntry_self _ (names_of_not_directory notDirectory)]

theorem fromUTF8?_toUTF8 (text : String) : String.fromUTF8? text.toUTF8 = some text := by
  rw [String.fromUTF8?, String.toUTF8_eq_toByteArray, dif_pos text.isValidUTF8]
  rfl

theorem readText?_of_writeText? {text : String} {after : Storage}
    (written : storage.writeText? path text = some after) : after.readText? path = some text := by
  rw [readText?, read?_of_write? written, Option.bind_some, fromUTF8?_toUTF8]

/-! ## Making directories -/

/-- Both have the same files. -/
def SameFiles (before after : Storage) : Prop :=
  ∀ location bytes, after.entryAt? location = some (.file bytes) ↔
    before.entryAt? location = some (.file bytes)

theorem SameFiles.refl (storage : Storage) : SameFiles storage storage :=
  fun _ _ => Iff.rfl

theorem SameFiles.trans {before between after : Storage} (first : SameFiles before between)
    (second : SameFiles between after) : SameFiles before after :=
  fun location bytes => (second location bytes).trans (first location bytes)

theorem sameFiles_setDirectory (free : storage.entryAt? location = none) :
    SameFiles storage (storage.setEntry location .directory) := by
  intro other bytes
  by_cases same : other = location
  · subst same
    have notDirectory : storage.isDirectory other = false := by
      rw [isDirectory, free]
    rw [entryAt?_setEntry_self _ (names_of_not_directory notDirectory), free]
    simp
  · rw [entryAt?_setEntry_of_ne _ same]

/-- One name of those along which directories are made. -/
theorem makeAlong_cons (location : Location) (name : String) (rest : List String)
    (storage : Storage) :
    makeAlong location (name :: rest) storage =
      if name = ".." then makeAlong location.outer rest storage
      else if Path.isName name then
        match storage.entryAt? (location.inner name) with
        | none =>
            makeAlong (location.inner name) rest
              (storage.setEntry (location.inner name) .directory)
        | some .directory => makeAlong (location.inner name) rest storage
        | some (.file _) => (false, storage)
      else (false, storage) := by
  rw [makeAlong]
  split
  · rfl
  split
  · show (match storage.entryAt? (location.inner name) with
      | none => _
      | some .directory => _
      | some (.file _) => _ : StateM Storage Bool) storage = _
    rcases storage.entryAt? (location.inner name) with _ | _ | _ <;> rfl
  · rfl

theorem sameFiles_makeAlong (names : List String) (location : Location) (storage : Storage) :
    SameFiles storage (makeAlong location names storage).2 := by
  induction names generalizing location storage with
  | nil => exact .refl storage
  | cons name rest induction =>
      rw [makeAlong_cons]
      split
      · exact induction _ storage
      split
      · split
        · next free => exact (sameFiles_setDirectory free).trans (induction _ _)
        · exact induction _ storage
        · exact .refl storage
      · exact .refl storage

theorem sameFiles_createDirectories (path : String) (storage : Storage) :
    SameFiles storage (createDirectories path storage).2 := by
  rw [createDirectories]
  split
  · exact sameFiles_makeAlong _ _ storage
  · exact .refl storage

theorem sameFiles_prepareParent (path : String) (storage : Storage) :
    SameFiles storage (prepareParent path storage).2 := by
  rw [prepareParent]
  cases Path.parent? path with
  | none => exact .refl storage
  | some directory =>
      have made := sameFiles_createDirectories directory storage
      show SameFiles storage
        ((if (createDirectories directory storage).1 = true then pure (Except.ok ())
          else pure (Except.error directory) : StateM Storage (Except String Unit))
            (createDirectories directory storage).2).2
      split <;> exact made

/-- The directories of the path can be made, and then it leads to where a file may be. -/
def isWritable (storage : Storage) (path : String) : Bool :=
  match prepareParent path storage with
  | (.ok (), prepared) =>
      match prepared.resolve? path with
      | some location => !prepared.isDirectory location
      | none => false
  | (.error _, _) => false

end EventSheet.Storage
