import DivoomDev.Storage.Simulation

/-! The same operations on a new path, with every step of the file system and of SQLite
succeeding: the two backends give the same answers. -/

namespace DivoomDev.Storage.Equivalence
open DivoomDev.Library.Bytes DivoomDev.Library.JsonValues DivoomDev.Library.KeyedList Models
  JsonBackend Durability SqliteBackend Simulation
open Json (EachText)

/-- One operation with all file steps succeeding; nothing where it throws. -/
def perform (lib : JsonLib) (store : Disk × Document) (operation : Operation) :
    Option (Answer × Disk × Document) :=
  if operation = .reopen then
    match load lib {} store.1 with
    | (some doc, disk) => some (.done, disk, doc)
    | (none, _) => none
  else
    match answer store.2 operation, change store.2 operation with
    | .ok a, .ok none => some (a, store)
    | .ok a, .ok (some doc) =>
        match save lib {} doc store.1 with
        | (.returned true, disk) => some (a, disk, doc)
        | _ => none
    | _, _ => none

def performAll (lib : JsonLib) (store : Disk × Document) : List Operation → Option (List Answer)
  | [] => some []
  | operation :: rest => do
      let (a, store) ← perform lib store operation
      let answers ← performAll lib store rest
      pure (a :: answers)

/-- The answers to a sequence of operations on a new path. -/
def jsonAnswers (lib : JsonLib) (operations : List Operation) : Option (List Answer) :=
  match load lib {} {} with
  | (some doc, disk) => performAll lib (disk, doc) operations
  | (none, _) => none

def savedDocuments (doc : Document) : List Operation → List Document
  | [] => []
  | operation :: rest =>
      match change doc operation with
      | .ok (some doc') => doc' :: savedDocuments doc' rest
      | _ => savedDocuments doc rest

/-- The library writes a document whose text is all UTF-8. -/
def Dumps (lib : JsonLib) (doc : Document) : Prop :=
  EachText ValidUtf8 (toJson doc) → ∃ content, lib.dump (toJson doc) = some content

def Held (lib : JsonLib) (disk : Disk) (doc : Document) : Prop :=
  ∃ content, lib.dump (toJson doc) = some content ∧ disk.dest = some content

section
variable {lib : JsonLib} {doc : Document} {disk : Disk} {t : Tables} {operation : Operation}

theorem save_succeeds {content : Text} (dumped : lib.dump (toJson doc) = some content) :
    save lib {} doc disk = (.returned true, { dest := some content }) := by
  rw [save_reaches ⟨rfl, by decide, by decide, by decide⟩ dumped]
  rfl

theorem load_held (roundTrips : RoundTrips lib) (complete : Complete doc) (held : Held lib disk doc) :
    load lib {} disk = (some doc, disk) := by
  obtain ⟨content, dumped, inFile⟩ := held
  rw [load, inFile, ← loadedDocument_dumped roundTrips complete dumped inFile]

theorem simulates_default : Simulates defaultDocument (Tables.openTables {}) where
  complete := fun _ member => mem_defaultDocument.mpr (List.mem_map_of_mem member)
  utf8 key v found := by
    have member : (key, v) ∈ defaultDocument.toList :=
      Std.ExtTreeMap.mem_toList_iff_getElem?_eq_some.mpr found
    rw [show defaultDocument.toList = [(accountsKey, .array []), (sourcesKey, .array []),
      (metaKey, .object []), (schemaVersion, .integer 1)] by decide +kernel] at member
    simp only [List.mem_cons, Prod.mk.injEq, List.not_mem_nil, or_false] at member
    rcases member with ⟨rfl, rfl⟩ | ⟨rfl, rfl⟩ | ⟨rfl, rfl⟩ | ⟨rfl, rfl⟩
    · exact ⟨by decide, .array (by simp)⟩
    · exact ⟨by decide, .array (by simp)⟩
    · exact ⟨by decide, .object (by simp) (by simp)⟩
    · exact ⟨by decide, .integer 1⟩
  version := by decide
  accounts := ⟨[], by decide +kernel, represents_nil, by simp⟩
  sources := ⟨[], by decide +kernel, represents_nil, by simp⟩
  meta_ := by decide +kernel
  metaClean key value found := by
    have member : (key, value) ∈ (Tables.openTables {}).meta_.toList :=
      Std.ExtTreeMap.mem_toList_iff_getElem?_eq_some.mpr found
    rw [show (Tables.openTables {}).meta_.toList = [(schemaVersion, text "1")] by decide +kernel,
      List.mem_singleton] at member
    cases member
    exact ⟨by decide, by decide⟩

theorem perform_agrees (roundTrips : RoundTrips lib) (simulates : Simulates doc t)
    (held : Held lib disk doc) (clean : Clean operation)
    (dumps : ∀ doc', change doc operation = .ok (some doc') → Dumps lib doc') :
    ∃ a disk' changed, perform lib (disk, doc) operation = some (a, disk', changed.getD doc) ∧
      change doc operation = .ok changed ∧ Agree a (t.perform operation).1 ∧
      Simulates (changed.getD doc) (t.perform operation).2 ∧ Held lib disk' (changed.getD doc) := by
  obtain ⟨a, answered, agree⟩ := answer_simulates simulates clean
  obtain ⟨changed, change, kept⟩ := change_simulates simulates clean
  by_cases reopen : operation = .reopen
  · subst reopen
    cases change
    cases answered
    refine ⟨.done, disk, none, ?_, rfl, agree, kept, held⟩
    rw [perform, if_pos rfl, load_held roundTrips simulates.complete held]
    rfl
  cases changed with
  | none =>
    refine ⟨a, disk, none, ?_, change, agree, kept, held⟩
    rw [perform, if_neg reopen, answered, change]
    rfl
  | some doc' =>
    obtain ⟨content, dumped⟩ := dumps doc' change (utf8Document_toJson kept.utf8)
    refine ⟨a, { dest := some content }, some doc', ?_, change, agree, kept, content, dumped, rfl⟩
    simp only [perform, if_neg reopen, answered, change, save_succeeds dumped, Option.getD_some]

theorem performAll_agrees (roundTrips : RoundTrips lib) {operations : List Operation}
    (simulates : Simulates doc t) (held : Held lib disk doc)
    (clean : ∀ operation ∈ operations, Clean operation)
    (dumps : ∀ saved ∈ savedDocuments doc operations, Dumps lib saved) :
    ∃ json, performAll lib (disk, doc) operations = some json ∧
      List.Forall₂ Agree json (answers.go t operations) := by
  induction operations generalizing doc disk t with
  | nil => exact ⟨[], rfl, .nil⟩
  | cons operation rest ih =>
    obtain ⟨cleanHere, cleanLater⟩ := List.forall_mem_cons.mp clean
    have dumpsHere (doc' : Document) (changed : change doc operation = .ok (some doc')) :
        Dumps lib doc' := dumps doc' (by simp [savedDocuments, changed])
    obtain ⟨a, disk', changed, performed, change, agree, kept, holds⟩ :=
      perform_agrees roundTrips simulates held cleanHere dumpsHere
    have dumpsLater : ∀ saved ∈ savedDocuments (changed.getD doc) rest, Dumps lib saved := by
      intro saved member
      apply dumps saved
      cases changed <;> simp_all [savedDocuments]
    obtain ⟨json, later, agreeLater⟩ := ih kept holds cleanLater dumpsLater
    refine ⟨a :: json, ?_, .cons agree agreeLater⟩
    simp [performAll, performed, later]

end

/-- The two backends answer every sequence of clean operations on a new path alike. -/
theorem answers_agree {lib : JsonLib} (roundTrips : RoundTrips lib) {operations : List Operation}
    (clean : ∀ operation ∈ operations, Clean operation)
    (dumps : ∀ doc ∈ defaultDocument :: savedDocuments defaultDocument operations, Dumps lib doc) :
    ∃ json, jsonAnswers lib operations = some json ∧ List.Forall₂ Agree json (answers operations) := by
  obtain ⟨dumpsDefault, dumpsLater⟩ := List.forall_mem_cons.mp dumps
  obtain ⟨content, dumped⟩ := dumpsDefault (utf8Document_toJson simulates_default.utf8)
  have loaded : load lib {} {} = (some defaultDocument, { dest := some content }) := by
    rw [load, save_succeeds dumped]
  rw [jsonAnswers, loaded]
  exact performAll_agrees roundTrips simulates_default ⟨content, dumped, rfl⟩ clean dumpsLater

theorem answers_agree_reopened : ∃ json,
    jsonAnswers sampleLib [.setMeta (text "k") (text "v"), .reopen, .getMeta (text "k"), .listMeta] =
      some json ∧
    List.Forall₂ Agree json [.done, .done, .metaValue (some (text "v")),
      .metaRows [(text "k", text "v"), (schemaVersion, text "1")]] := by
  have saved : savedDocuments defaultDocument
      [.setMeta (text "k") (text "v"), .reopen, .getMeta (text "k"), .listMeta] = [metaDocument "v"] := by
    decide +kernel
  have given : answers [.setMeta (text "k") (text "v"), .reopen, .getMeta (text "k"), .listMeta] =
      [.done, .done, .metaValue (some (text "v")),
        .metaRows [(text "k", text "v"), (schemaVersion, text "1")]] := by decide +kernel
  rw [← given]
  refine answers_agree sampleLib_roundTrips ?_ ?_
  · simp only [List.forall_mem_cons, List.not_mem_nil, false_implies, implies_true, and_true, Clean]
    exact ⟨⟨by decide, by decide, by decide⟩, by decide, by decide⟩
  · simp only [saved, List.forall_mem_cons, List.not_mem_nil, false_implies, implies_true, and_true]
    exact ⟨fun _ => Option.isSome_iff_exists.mp (by decide +kernel),
      fun _ => Option.isSome_iff_exists.mp (by decide +kernel)⟩

end DivoomDev.Storage.Equivalence
