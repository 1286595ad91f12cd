import DivoomDev.Storage.Durability

/-! The document in memory next to the file when a save fails: the operations change the one
first, and do not look at what becomes of the other. -/

namespace DivoomDev.Storage.FailedSaves
open DivoomDev.Library.Bytes DivoomDev.Library.JsonValues DivoomDev.Library.Run Models JsonBackend
  Durability

/-- A call that is over: the process does not stop during its save. -/
structure Call where
  operation : Operation
  io : SaveIo
  finishes : io.stop = none

def call (lib : JsonLib) (p : Process) (c : Call) : Option Process := step lib p (.mutate c.operation c.io)

/-- A store that is newly opened on the file answers as this document does. -/
def FileAnswers (lib : JsonLib) (disk : Disk) (doc : Document) : Prop :=
  ∃ loaded, loadedDocument lib disk = some loaded ∧ ∀ operation, answer doc operation = answer loaded operation

def InSync (lib : JsonLib) (p : Process) : Prop := ∀ doc, p.doc = some doc → FileAnswers lib p.disk doc

def InSyncBehind (lib : JsonLib) (p : Process) (c : Call) : Prop := ∀ p', call lib p c = some p' → InSync lib p'

/-- Where something is saved: the save is completed, or it leaves a file that answers as the
changed document, or it loses the file and the changed document answers as that of an empty store.
Where nothing is saved, the file answered as the document before. -/
def Saved (lib : JsonLib) (p : Process) (c : Call) : Prop :=
  ∀ doc, p.doc = some doc →
    (∀ doc', change doc c.operation = .ok (some doc') →
      Completes lib c.io doc' ∨
        (LeavesFile lib c.io doc' p.disk ∧ FileAnswers lib p.disk doc') ∨
        (lib.dump (toJson doc') ≠ none ∧ LosesFile c.io p.disk ∧
          ∀ operation, answer doc' operation = answer defaultDocument operation)) ∧
    ((∀ doc', change doc c.operation ≠ .ok (some doc')) → FileAnswers lib p.disk doc)

/-- The text of an object that is cut short is no JSON. -/
def NoPrefixes (lib : JsonLib) : Prop :=
  ∀ members content n, lib.dump (.object members) = some content → n < content.length →
    ∀ j, lib.parse (content.take n) ≠ .ok j

/-! ## The file behind a save -/

section Save
variable {lib : JsonLib} {io : SaveIo} {doc : Document} {disk : Disk}

theorem save_finishes (finishes : io.stop = none) : (save lib io doc disk).1 ≠ .stopped := by
  simp only [save, atomicReplace, finishes, reduceCtorEq, if_false]
  cases lib.dump (toJson doc) <;> split_ifs <;> simp

/-- A save that loses the file leaves none. -/
theorem save_lost {content : Text} (loses : LosesFile io disk) (dumped : lib.dump (toJson doc) = some content) :
    (save lib io doc disk).2.dest = none := by
  obtain ⟨reaches, removes, _, fails⟩ := loses
  rw [save_reaches reaches dumped, atomicReplace_dest, if_neg fails, if_pos removes]

/-- What becomes of the file. -/
theorem save_cases (lib : JsonLib) (io : SaveIo) (doc : Document) (disk : Disk) :
    LeavesFile lib io doc disk ∨
      ∃ content, lib.dump (toJson doc) = some content ∧ (LosesFile io disk ∧ ¬Renamed io ∨ Renamed io) := by
  cases dumped : lib.dump (toJson doc) with
  | none => exact .inl (.inl dumped)
  | some content =>
    by_cases renamed : Renamed io
    · exact .inr ⟨content, rfl, .inr renamed⟩
    · by_cases loses : LosesFile io disk
      · exact .inr ⟨content, rfl, .inl ⟨loses, renamed⟩⟩
      · exact .inl (.inr ⟨loses, renamed⟩)

theorem fileAnswers_congr {a b : Disk} (same : a.dest = b.dest) (doc : Document) :
    FileAnswers lib a doc ↔ FileAnswers lib b doc := by
  rw [FileAnswers, FileAnswers, loadedDocument_congr same]

theorem fileAnswers_none (lost : disk.dest = none) :
    FileAnswers lib disk doc ↔ ∀ operation, answer doc operation = answer defaultDocument operation := by
  rw [FileAnswers, loadedDocument, lost]
  constructor
  · rintro ⟨loaded, same, answers⟩
    cases same
    exact answers
  · exact fun answers => ⟨_, rfl, answers⟩

theorem write_short {content : Text} (short : io.write content ≠ content) :
    ∃ n, n < content.length ∧ io.write content = content.take n := by
  unfold SaveIo.write at short ⊢
  cases written : io.written with
  | none => simp [written] at short
  | some n =>
    refine ⟨n, ?_, rfl⟩
    by_contra long
    exact short (by simpa [written] using Nat.le_of_not_lt long)

/-- Behind a save the file answers as the document exactly where the save was completed, or
did not have to be. -/
theorem save_fileAnswers_iff (roundTrips : RoundTrips lib) (noPrefixes : NoPrefixes lib)
    (complete : Complete doc) :
    FileAnswers lib (save lib io doc disk).2 doc ↔
      Completes lib io doc ∨ (LeavesFile lib io doc disk ∧ FileAnswers lib disk doc) ∨
        (lib.dump (toJson doc) ≠ none ∧ LosesFile io disk ∧
          ∀ operation, answer doc operation = answer defaultDocument operation) := by
  rcases save_cases lib io doc disk with leaves | ⟨content, dumped, ⟨loses, notRenamed⟩ | renamed⟩
  · have notCompletes : ¬Completes lib io doc := by
      rintro ⟨content, dumped, renamed, _⟩
      rcases leaves with refused | ⟨_, notRenamed⟩
      · rw [refused] at dumped
        cases dumped
      · exact notRenamed renamed
    have notLost : ¬(lib.dump (toJson doc) ≠ none ∧ LosesFile io disk ∧
        ∀ operation, answer doc operation = answer defaultDocument operation) := by
      rintro ⟨dumped, loses, _⟩
      exact (leaves.resolve_left dumped).1 loses
    rw [fileAnswers_congr (save_untouched leaves)]
    tauto
  · have lost := save_lost loses dumped
    have notCompletes : ¬Completes lib io doc := by
      rintro ⟨_, _, renamed, _⟩
      exact notRenamed renamed
    have notLeft : ¬LeavesFile lib io doc disk := by
      rintro (refused | ⟨kept, _⟩)
      · rw [refused] at dumped
        cases dumped
      · exact kept loses
    rw [fileAnswers_none lost]
    have written : lib.dump (toJson doc) ≠ none := by simp [dumped]
    tauto
  · have held : (save lib io doc disk).2.dest = some (io.write content) := save_renamed renamed dumped
    have notLeft : ¬LeavesFile lib io doc disk := by
      rintro (refused | ⟨_, notRenamed⟩)
      · rw [refused] at dumped
        cases dumped
      · exact notRenamed renamed
    have notLost : ¬LosesFile io disk := fun loses => loses.2.2.2 renamed.2
    by_cases whole : io.write content = content
    · rw [whole] at held
      exact iff_of_true ⟨doc, loadedDocument_dumped roundTrips complete dumped held, fun _ => rfl⟩
        (.inl ⟨content, dumped, renamed, whole⟩)
    · have notCompletes : ¬Completes lib io doc := by
        rintro ⟨content', dumped', _, whole'⟩
        rw [dumped] at dumped'
        obtain rfl := Option.some.inj dumped'
        exact whole whole'
      obtain ⟨n, short, cut⟩ := write_short whole
      have unreadable : loadedDocument lib (save lib io doc disk).2 = none := by
        simp only [loadedDocument, held, cut]
        cases parsed : lib.parse (content.take n) with
        | error e => rfl
        | ok j => exact absurd parsed (noPrefixes _ _ n dumped short j)
      have broken : ¬FileAnswers lib (save lib io doc disk).2 doc := by
        rintro ⟨loaded, found, _⟩
        rw [unreadable] at found
        cases found
      tauto

end Save

/-! ## Runs -/

section Runs
variable {lib : JsonLib} {p : Process}

theorem call_saved {doc doc' : Document} {c : Call} (opened : p.doc = some doc)
    (changed : change doc c.operation = .ok (some doc')) :
    call lib p c = some { disk := (save lib c.io doc' p.disk).2, doc := some doc' } := by
  have finishes : (save lib c.io doc' p.disk).1 ≠ .stopped := save_finishes c.finishes
  -- `finishes` rules out the branch of a process that stops
  simp only [call, step, opened, changed]

theorem call_unsaved {doc : Document} {c : Call} (opened : p.doc = some doc)
    (unchanged : ∀ doc', change doc c.operation ≠ .ok (some doc')) : call lib p c = some p := by
  simp only [call, step, opened]
  cases changed : change doc c.operation with
  | error e => rfl
  | ok result =>
    cases result with
    | none => rfl
    | some doc' => exact absurd changed (unchanged doc')

theorem inSyncBehind_iff (roundTrips : RoundTrips lib) (noPrefixes : NoPrefixes lib) (sound : Sound p)
    (c : Call) : InSyncBehind lib p c ↔ Saved lib p c := by
  cases opened : p.doc with
  | none =>
    have closed : call lib p c = none := by simp [call, step, opened]
    refine iff_of_true (fun p' called => ?_) (fun doc held => ?_)
    · rw [closed] at called
      cases called
    · rw [opened] at held
      cases held
  | some doc =>
    by_cases saved : ∃ doc', change doc c.operation = .ok (some doc')
    · obtain ⟨doc', changed⟩ := saved
      have complete := complete_change (sound doc opened) changed
      have answers : FileAnswers lib (save lib c.io doc' p.disk).2 doc' ↔ _ :=
        save_fileAnswers_iff roundTrips noPrefixes complete
      simp only [InSyncBehind, InSync, Saved, call_saved opened changed, opened, Option.some.injEq,
        forall_eq', changed, Except.ok.injEq]
      rw [answers]
      simp
    · simp only [not_exists] at saved
      simp only [InSyncBehind, InSync, Saved, call_unsaved opened saved, opened, Option.some.injEq,
        forall_eq']
      constructor
      · exact fun inSync => ⟨fun doc' changed => absurd changed (saved doc'), fun _ => inSync⟩
      · exact fun answered => answered.2 saved

theorem call_sound (p : Process) (c : Call) (p' : Process) (sound : Sound p) (called : call lib p c = some p') :
    Sound p' := step_sound p (.mutate c.operation c.io) p' sound called

/-- In every run, memory and file answer alike behind each call exactly where each call is
saved or had nothing to save. -/
theorem runs_inSync_iff (roundTrips : RoundTrips lib) (noPrefixes : NoPrefixes lib) (sound : Sound p)
    (calls : List Call) :
    Along (InSyncBehind lib) (call lib) p calls ↔ Along (Saved lib) (call lib) p calls := by
  constructor
  · exact along_imp (fun p c p' sound _ called => call_sound p c p' sound called)
      (fun p c sound => (inSyncBehind_iff roundTrips noPrefixes sound c).mp) sound
  · exact along_imp (fun p c p' sound _ called => call_sound p c p' sound called)
      (fun p c sound => (inSyncBehind_iff roundTrips noPrefixes sound c).mpr) sound

end Runs

/-! ## A save that fails -/

theorem tableLib_noPrefixes {table : List (Json × Text)}
    (apart : ∀ a ∈ table, ∀ b ∈ table, b.2.isPrefixOf a.2 = true → a.2 = b.2) : NoPrefixes (tableLib table) := by
  intro members content n dumped short j parsed
  obtain ⟨row, found, rfl⟩ := Option.map_eq_some_iff.mp dumped
  simp only [tableLib] at parsed
  split at parsed
  · next other cut =>
    have isCut : other.2 = row.2.take n := by simpa using List.find?_some cut
    have whole := apart row (List.mem_of_find?_eq_some found) other (List.mem_of_find?_eq_some cut)
      (by simpa [isCut] using List.take_prefix n row.2)
    have lengths := congrArg List.length (whole.trans isCut)
    rw [List.length_take] at lengths
    omega
  · cases parsed

theorem sampleLib_noPrefixes : NoPrefixes sampleLib := tableLib_noPrefixes (by decide +kernel)

def setKey (io : SaveIo) (finishes : io.stop = none) : Call := ⟨.setMeta (text "k") (text "v"), io, finishes⟩

theorem opened_sound : Sound (opened defaultDocument) := by
  intro doc held
  cases held
  exact complete_load (show loadedDocument sampleLib {} = some defaultDocument from rfl)

theorem runs_inSync_saved :
    Along (InSyncBehind sampleLib) (call sampleLib) (opened defaultDocument) [setKey {} rfl] := by
  refine (runs_inSync_iff sampleLib_roundTrips sampleLib_noPrefixes opened_sound _).mpr ⟨?_, fun _ _ => trivial⟩
  intro doc held
  cases held
  refine ⟨fun doc' changed => .inl ?_, fun unchanged => absurd sample_changed (unchanged _)⟩
  obtain rfl : metaDocument "v" = doc' := Option.some.inj (Except.ok.inj (sample_changed.symm.trans changed))
  exact ⟨documentText "\x7b\n    \"k\": \"v\"\n  \x7d", by decide +kernel,
    ⟨⟨rfl, by decide, by decide, by decide⟩, by decide, rfl⟩, rfl⟩

/-- The temporary file cannot be opened: the value is there in memory and not in the file. -/
theorem failed_save_hidden :
    ¬∀ (lib : JsonLib) (p : Process) (calls : List Call), RoundTrips lib → NoPrefixes lib → Sound p →
      Along (InSyncBehind lib) (call lib) p calls := by
  intro always
  have along := always sampleLib (opened defaultDocument) [setKey { opens := false } rfl] sampleLib_roundTrips
    sampleLib_noPrefixes opened_sound
  obtain ⟨loaded, found, answers⟩ := along.1 { opened defaultDocument with doc := some (metaDocument "v") }
    (by decide +kernel) (metaDocument "v") rfl
  have held : loadedDocument sampleLib (opened defaultDocument).disk = some defaultDocument := by decide +kernel
  obtain rfl := Option.some.inj (held.symm.trans found)
  exact absurd (answers (.getMeta (text "k"))) (by decide +kernel)

end DivoomDev.Storage.FailedSaves
