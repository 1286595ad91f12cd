import DivoomDev.Library.Fallible
import DivoomDev.Library.Run
import DivoomDev.Storage.JsonBackend

/-! What a later open of the JSON file finds when a save fails or the process stops on the
way: runs of a backend under a file system that may do both at every step. -/

namespace DivoomDev.Storage.Durability
open DivoomDev.Library.Bytes DivoomDev.Library.JsonValues DivoomDev.Library.Fallible
  DivoomDev.Library.Run Models JsonBackend

/-! ## Runs -/

/-- The files and, while a process has the backend open, its document. -/
structure Process where
  disk : Disk := {}
  doc : Option Document := none
  deriving DecidableEq, Repr

inductive Input where
  | openBackend (io : SaveIo)
  | mutate (operation : Operation) (io : SaveIo)

/-- One step. An operation needs an open backend; an exception leaves it open, and a process
that stops leaves only its files. -/
def step (lib : JsonLib) (p : Process) : Input → Option Process
  | .openBackend io =>
      let (doc, disk) := load lib io p.disk
      some { disk, doc }
  | .mutate operation io =>
      match p.doc with
      | none => none
      | some doc =>
          match change doc operation with
          | .error _ => some p
          | .ok none => some p
          | .ok (some doc') =>
              match save lib io doc' p.disk with
              | (.stopped, disk) => some { disk, doc := none }
              | (_, disk) => some { disk, doc := some doc' }

/-! ## Documents of an open backend -/

def Complete (doc : Document) : Prop := ∀ m ∈ defaultMembers, m.1 ∈ doc

theorem complete_insert {doc : Document} (complete : Complete doc) (key : Text) (v : Json) :
    Complete (doc.insert key v) := fun m member =>
  Std.ExtTreeMap.mem_insert.mpr (.inr (complete m member))

theorem mem_defaultDocument {key : Text} : key ∈ defaultDocument ↔ key ∈ defaultMembers.map Prod.fst := by
  rw [defaultDocument, Std.ExtTreeMap.mem_ofList, List.contains_iff_mem]

/-- Loading keeps the default keys and lets the members of the file win. -/
theorem complete_load {lib : JsonLib} {disk : Disk} {doc : Document}
    (loaded : loadedDocument lib disk = some doc) : Complete doc := by
  have default (m : Text × Json) (member : m ∈ defaultMembers) : m.1 ∈ defaultDocument :=
    mem_defaultDocument.mpr (List.mem_map_of_mem member)
  unfold loadedDocument at loaded
  split at loaded
  · cases loaded
    exact default
  · split at loaded
    · cases loaded
      exact fun m member => Std.ExtTreeMap.mem_insertMany_list.mpr (.inl (default m member))
    · cases loaded

theorem update_complete {doc : Document} (complete : Complete doc) :
    defaultDocument.insertMany doc.toList = doc := by
  apply Std.ExtTreeMap.ext_getElem?
  intro key
  cases found : doc[key]? with
  | some v =>
    exact Std.ExtTreeMap.getElem?_insertMany_list_of_mem Std.ReflCmp.compare_self doc.distinct_keys_toList
      (Std.ExtTreeMap.mem_toList_iff_getElem?_eq_some.mpr found)
  | none =>
    have missing : key ∉ doc := by
      rw [Std.ExtTreeMap.mem_iff_isSome_getElem?, found]
      simp
    apply Std.ExtTreeMap.getElem?_eq_none
    rw [Std.ExtTreeMap.mem_insertMany_list, not_or]
    apply And.intro
    · rw [mem_defaultDocument, List.mem_map]
      intro given
      obtain ⟨m, member, rfl⟩ := given
      exact missing (complete m member)
    · rw [List.contains_iff_mem, List.mem_map]
      intro given
      obtain ⟨m, member, rfl⟩ := given
      exact missing (Std.ExtTreeMap.mem_iff_isSome_getElem?.mpr (by
        rw [Std.ExtTreeMap.mem_toList_iff_getElem?_eq_some.mp (show (m.1, m.2) ∈ doc.toList from member)]
        rfl))

theorem complete_inserted {doc doc' : Document} (complete : Complete doc) {x : Except JsonError Json}
    {key : Text} (changed : (x >>= fun v => pure (some (doc.insert key v))) = .ok (some doc')) :
    Complete doc' := by
  obtain ⟨v, _, same⟩ := bind_eq_ok.mp changed
  cases same
  exact complete_insert complete key v

theorem complete_inserted_some {doc doc' : Document} (complete : Complete doc)
    {x : Except JsonError (Option Json)} {key : Text}
    (changed : (x >>= fun v => pure (v.map (doc.insert key))) = .ok (some doc')) : Complete doc' := by
  obtain ⟨found, _, same⟩ := bind_eq_ok.mp changed
  obtain ⟨v, _, rfl⟩ := Option.map_eq_some_iff.mp (Except.ok.inj same)
  exact complete_insert complete key v

theorem complete_change {doc doc' : Document} (complete : Complete doc) {operation : Operation}
    (changed : change doc operation = .ok (some doc')) : Complete doc' := by
  cases operation with
  | upsertAccount acc => exact complete_inserted complete changed
  | deleteAccount service => exact complete_inserted_some complete changed
  | upsertCalendarSource src => exact complete_inserted complete changed
  | removeCalendarSource url => exact complete_inserted_some complete changed
  | setMeta key value => exact complete_inserted complete changed
  | deleteMeta key => exact complete_inserted complete changed
  | clear =>
    cases changed
    exact complete_insert (complete_insert (complete_insert complete _ _) _ _) _ _
  | getAccount _ => cases changed
  | listAccounts => cases changed
  | listCalendarSources => cases changed
  | getMeta _ => cases changed
  | listMeta => cases changed
  | reopen => cases changed

def Sound (p : Process) : Prop := ∀ doc, p.doc = some doc → Complete doc

theorem step_sound {lib : JsonLib} (p : Process) (input : Input) (p' : Process) (sound : Sound p)
    (stepped : step lib p input = some p') : Sound p' := by
  cases input with
  | openBackend io =>
    cases stepped
    intro doc loaded
    dsimp only at loaded
    split at loaded
    · exact complete_load loaded
    · split at loaded
      · cases loaded
        exact complete_load (show loadedDocument lib {} = some defaultDocument from rfl)
      · cases loaded
  | mutate operation io =>
    simp only [step] at stepped
    split at stepped
    · cases stepped
    · next doc opened =>
      split at stepped
      · cases stepped; exact sound
      · cases stepped; exact sound
      · next doc' changed =>
        have complete := complete_change (sound doc opened) changed
        split at stepped
        · cases stepped
          intro doc none
          cases none
        · cases stepped
          intro doc same
          cases same
          exact complete

/-! ## One save -/

section Save
variable (lib : JsonLib) (io : SaveIo) (doc : Document) (disk : Disk)

/-- The save gets as far as `atomic_replace`. -/
def ReachesReplace : Prop :=
  io.opens = true ∧ io.stop ≠ some .directories ∧ io.stop ≠ some .opened ∧ io.stop ≠ some .written

def Renamed : Prop := ReachesReplace io ∧ io.stop ≠ some .removed ∧ io.renames = true

/-- The file is removed, and nothing takes its place. -/
def LosesFile : Prop :=
  ReachesReplace io ∧ io.removes = true ∧ disk.dest ≠ none ∧ ¬(io.stop ≠ some .removed ∧ io.renames = true)

def Completes : Prop :=
  ∃ content, lib.dump (toJson doc) = some content ∧ Renamed io ∧ io.write content = content

def LeavesFile : Prop := lib.dump (toJson doc) = none ∨ (¬LosesFile io disk ∧ ¬Renamed io)

variable {lib io doc disk}

theorem atomicReplace_dest (io : SaveIo) (disk : Disk) :
    (atomicReplace io disk).2.dest =
      if io.stop ≠ some .removed ∧ io.renames = true then disk.tmp
      else if io.removes then none else disk.dest := by
  cases removes : io.removes <;> cases renames : io.renames <;>
    by_cases removed : io.stop = some .removed <;> simp [atomicReplace, removes, renames, removed]

/-- A save that gets as far as the replacement has written what it could of the text. -/
theorem save_reaches {content : Text} (reaches : ReachesReplace io)
    (dumped : lib.dump (toJson doc) = some content) :
    save lib io doc disk = atomicReplace io { disk with tmp := some (io.write content) } := by
  obtain ⟨opens, directories, opened, written⟩ := reaches
  simp [save, opens, directories, opened, dumped, written]

/-- A save that ends earlier has only touched the temporary file. -/
theorem save_early (early : ¬ReachesReplace io ∨ lib.dump (toJson doc) = none) :
    (save lib io doc disk).2.dest = disk.dest := by
  unfold save
  split_ifs with directories opens opened written
  · rfl
  · rfl
  · rfl
  · cases lib.dump (toJson doc) <;> rfl
  · cases dumped : lib.dump (toJson doc) with
    | none => rfl
    | some content =>
      exact absurd ⟨by simpa using opens, directories, opened, written⟩
        (early.resolve_right (by simp [dumped]))

theorem save_renamed {content : Text} (renamed : Renamed io)
    (dumped : lib.dump (toJson doc) = some content) :
    (save lib io doc disk).2.dest = some (io.write content) := by
  rw [save_reaches renamed.1 dumped, atomicReplace_dest, if_pos renamed.2]

theorem save_untouched (leaves : LeavesFile lib io doc disk) :
    (save lib io doc disk).2.dest = disk.dest := by
  by_cases early : ¬ReachesReplace io ∨ lib.dump (toJson doc) = none
  · exact save_early early
  rw [not_or, not_not] at early
  obtain ⟨content, dumped⟩ := Option.ne_none_iff_exists'.mp early.2
  obtain ⟨kept, notRenamed⟩ := leaves.resolve_left early.2
  have fails : ¬(io.stop ≠ some .removed ∧ io.renames = true) := fun both => notRenamed ⟨early.1, both⟩
  rw [save_reaches early.1 dumped, atomicReplace_dest, if_neg fails]
  split_ifs with removes
  · exact by_contra (fun present => kept ⟨early.1, removes, Ne.symm present, fails⟩)
  · rfl

end Save

theorem loadedDocument_congr {lib : JsonLib} {a b : Disk} (same : a.dest = b.dest) :
    loadedDocument lib a = loadedDocument lib b := by
  rw [loadedDocument, loadedDocument, same]

theorem loadedDocument_dumped {lib : JsonLib} (roundTrips : RoundTrips lib) {disk : Disk} {doc : Document}
    {content : Text} (complete : Complete doc) (dumped : lib.dump (toJson doc) = some content)
    (held : disk.dest = some content) : loadedDocument lib disk = some doc := by
  simp only [loadedDocument, held, roundTrips _ _ dumped, toJson, update_complete complete]

/-! ## Before or after -/

/-- What an open finds behind a mutating operation is the document before or after it. -/
def LoadsBeforeOrAfter (lib : JsonLib) (p : Process) : Input → Prop
  | .openBackend _ => True
  | .mutate operation io => ∀ doc doc' p', p.doc = some doc →
      change doc operation = .ok (some doc') → step lib p (.mutate operation io) = some p' →
      loadedDocument lib p'.disk = some doc ∨ loadedDocument lib p'.disk = some doc'

/-- The save of a mutating operation is completed; or it ends before it touches the file, and
the file held the document that was in memory. -/
def SafeStep (lib : JsonLib) (p : Process) : Input → Prop
  | .openBackend _ => True
  | .mutate operation io => ∀ doc doc', p.doc = some doc → change doc operation = .ok (some doc') →
      Completes lib io doc' ∨
        (LeavesFile lib io doc' p.disk ∧ loadedDocument lib p.disk = some doc)

theorem step_mutate_disk {lib : JsonLib} {p p' : Process} {doc doc' : Document} {operation : Operation}
    {io : SaveIo} (opened : p.doc = some doc) (changed : change doc operation = .ok (some doc'))
    (stepped : step lib p (.mutate operation io) = some p') :
    p'.disk = (save lib io doc' p.disk).2 := by
  simp only [step, opened, changed] at stepped
  split at stepped
  · next disk same =>
    cases stepped
    rw [same]
  · next disk _ same =>
    cases stepped
    rw [same]

theorem safeStep_before_or_after {lib : JsonLib} (roundTrips : RoundTrips lib) (p : Process)
    (input : Input) (sound : Sound p) (safe : SafeStep lib p input) : LoadsBeforeOrAfter lib p input := by
  cases input with
  | openBackend io => trivial
  | mutate operation io =>
    intro doc doc' p' opened changed stepped
    have disk := step_mutate_disk opened changed stepped
    rcases safe doc doc' opened changed with ⟨content, dumped, renamed, whole⟩ | ⟨leaves, held⟩
    · refine .inr (loadedDocument_dumped roundTrips (complete_change (sound doc opened) changed) dumped ?_)
      rw [disk, save_renamed renamed dumped, whole]
    · left
      rw [← held]
      exact loadedDocument_congr (by rw [disk, save_untouched leaves])

/-- In every run whose saves are safe, an open behind any operation finds the document before
or after it. -/
theorem saves_before_or_after {lib : JsonLib} (roundTrips : RoundTrips lib) {disk : Disk}
    {inputs : List Input} (safe : Along (SafeStep lib) (step lib) { disk := disk } inputs) :
    Along (LoadsBeforeOrAfter lib) (step lib) { disk := disk } inputs :=
  along_imp (I := Sound) (fun p input p' sound _ stepped => step_sound p input p' sound stepped)
    (fun p input sound safe => safeStep_before_or_after roundTrips p input sound safe)
    (fun _ none => by cases none) safe

/-! ## Runs on a sample -/

def metaDocument (value : String) : Document :=
  defaultDocument.insert metaKey (.object [(text "k", .string (text value))])

def documentText (metaText : String) : Text :=
  text "\x7b\n  \"accounts\": [],\n  \"calendar_sources\": [],\n  \"meta\": " ++ text metaText ++
    text ",\n  \"schema_version\": 1\n\x7d"

def sampleLib : JsonLib := tableLib
  [(toJson defaultDocument, documentText "\x7b\x7d"),
    (toJson (metaDocument "v"), documentText "\x7b\n    \"k\": \"v\"\n  \x7d"),
    (toJson (metaDocument "w"), documentText "\x7b\n    \"k\": \"w\"\n  \x7d")]

theorem sampleLib_roundTrips : RoundTrips sampleLib := tableLib_roundTrips (by decide +kernel)

/-- The backend with a document open that its file holds. -/
def opened (doc : Document) : Process where
  disk := { dest := sampleLib.dump (toJson doc) }
  doc := some doc

theorem sample_open : step sampleLib { disk := {} } (.openBackend {}) = some (opened defaultDocument) := by
  decide +kernel

theorem sample_setMeta :
    step sampleLib (opened defaultDocument) (.mutate (.setMeta (text "k") (text "v")) {}) =
      some (opened (metaDocument "v")) := by decide +kernel

theorem sample_changed : change defaultDocument (.setMeta (text "k") (text "v")) =
    .ok (some (metaDocument "v")) := by decide +kernel

/-- A run that completes its first save and stops in the middle of writing its second. -/
theorem saves_before_or_after_stopped : Along (LoadsBeforeOrAfter sampleLib) (step sampleLib)
    { disk := {} } [.openBackend {}, .mutate (.setMeta (text "k") (text "v")) {},
      .mutate (.setMeta (text "k") (text "w")) { written := some 7, stop := some .written }] := by
  refine saves_before_or_after sampleLib_roundTrips ⟨trivial, fun p first => ?_⟩
  obtain rfl : p = opened defaultDocument := Option.some.inj (first.symm.trans sample_open)
  refine ⟨fun doc doc' held changed => ?_, fun p second => ?_⟩
  · cases held
    obtain rfl : metaDocument "v" = doc' :=
      Option.some.inj (Except.ok.inj (sample_changed.symm.trans changed))
    exact .inl ⟨documentText "\x7b\n    \"k\": \"v\"\n  \x7d", by decide +kernel,
      ⟨⟨rfl, by decide, by decide, by decide⟩, by decide, rfl⟩, rfl⟩
  · obtain rfl : p = opened (metaDocument "v") := Option.some.inj (second.symm.trans sample_setMeta)
    refine ⟨fun doc doc' held _ => ?_, fun _ _ => trivial⟩
    cases held
    exact .inr ⟨.inr ⟨fun loses => loses.1.2.2.2 rfl, fun renamed => renamed.1.2.2.2 rfl⟩,
      by decide +kernel⟩

/-- A process that stops between the removal and the renaming of its second save leaves no
file, and an open then makes a new one with the default document. -/
theorem save_loses_file :
    ¬∀ lib disk inputs, RoundTrips lib →
      Along (LoadsBeforeOrAfter lib) (step lib) { disk := disk } inputs := by
  intro always
  have along := always sampleLib {} [.openBackend {}, .mutate (.setMeta (text "k") (text "v")) {},
    .mutate (.setMeta (text "k") (text "w")) { stop := some .removed }] sampleLib_roundTrips
  have found := ((along.2 _ sample_open).2 _ sample_setMeta).1 (metaDocument "v") (metaDocument "w")
    { disk := { tmp := sampleLib.dump (toJson (metaDocument "w")) } } rfl (by decide +kernel)
    (by decide +kernel)
  exact absurd found (by decide +kernel)

end DivoomDev.Storage.Durability
