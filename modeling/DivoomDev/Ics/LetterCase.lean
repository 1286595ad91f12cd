import DivoomDev.Ics.ContentLines
import DivoomDev.Ics.Exclusion
import DivoomDev.Ics.Respelling

/-! Calendars that differ in the case of their keywords. The scan for components compares whole
lines, so a calendar whose BEGIN:VEVENT is spelled in small letters has no events. -/

namespace DivoomDev.Ics.LetterCase
open DivoomDev.Library.Bytes DivoomDev.Library.Fallible TextUtils Models Datetime Recurrence Window
  OverrideApplier Pipeline Series Properties Exclusion ContentLines Respelling

/-! ## Spellings of a calendar -/

/-- The lines whose value consists of keywords: component delimiters and recurrence rules. -/
def keywordNames : List Text := [text "BEGIN", text "END", text "RRULE"]

structure SameParam (p p' : Param) : Prop where
  name : toUpper p'.name = toUpper p.name
  values : p'.values = p.values

/-- The names of a content line and its parameters in another spelling, and its value too where
that consists of keywords. -/
structure SameLine (line line' : ContentLine) : Prop where
  name : toUpper line'.name = toUpper line.name
  params : List.Forall₂ SameParam line.params line'.params
  value : line'.value = line.value ∨
    (toUpper line.name ∈ keywordNames ∧ toUpper line'.value = toUpper line.value)

/-- A line that is no content line has no other spelling. -/
inductive LineRespelled : Text → Text → Prop
  | same (line : Text) : LineRespelled line line
  | content {blanks : Text} (front : ∀ c ∈ blanks, isBlank c = true) {line line' : ContentLine}
      (respelled : SameLine line line') : LineRespelled (blanks ++ line.text) (blanks ++ line'.text)

/-- Two calendar texts that differ in the case of letters only, and in no letter that stands
outside of a component delimiter, a property name, a parameter name and an RRULE. -/
structure Respelled (content content' : Text) : Prop where
  letters : toUpper content' = toUpper content
  lines : List.Forall₂ LineRespelled (contentLines content) (contentLines content')

/-- No other spelling of the calendar changes what is returned of it. -/
def CaseIndifferent (zone : SystemZone) (content : Text) : Prop :=
  ∀ content', Respelled content content' → ∀ now settings,
    parseCalendarAt zone content' now settings = parseCalendarAt zone content now settings

/-! ## The spelling without events -/

theorem trim_parts (s : Text) : ∃ front back : Text, (∀ c ∈ front, isBlank c = true) ∧
    (∀ c ∈ back, isBlank c = true) ∧ s = front ++ trim s ++ back := by
  refine ⟨s.takeWhile isBlank, ((s.dropWhile isBlank).reverse.takeWhile isBlank).reverse,
    fun c inside => List.mem_takeWhile_imp inside,
    fun c inside => List.mem_takeWhile_imp (List.mem_reverse.mp inside), ?_⟩
  rw [trim, strip, List.append_assoc, ← List.reverse_append, List.takeWhile_append_dropWhile,
    List.reverse_reverse, List.takeWhile_append_dropWhile]

/-- BEGIN:VEVENT with what stands behind it on its line. -/
def opening (back : Text) : ContentLine where
  name := text "BEGIN"
  named := ⟨by decide +kernel, by decide +kernel⟩
  value := text "VEVENT" ++ back

def smallOpening (back : Text) : ContentLine where
  name := text "begin"
  named := ⟨by decide +kernel, by decide +kernel⟩
  value := text "vevent" ++ back

theorem opening_text (back : Text) : (opening back).text = text "BEGIN:VEVENT" ++ back := by
  have parts : text "BEGIN:VEVENT" = text "BEGIN" ++ byte ':' :: text "VEVENT" := by decide +kernel
  rw [parts, List.append_assoc]
  rfl

theorem smallOpening_text (back : Text) : (smallOpening back).text = text "begin:vevent" ++ back := by
  have parts : text "begin:vevent" = text "begin" ++ byte ':' :: text "vevent" := by decide +kernel
  rw [parts, List.append_assoc]
  rfl

theorem sameLine_opening (back : Text) : SameLine (opening back) (smallOpening back) where
  name := show toUpper (text "begin") = toUpper (text "BEGIN") by decide +kernel
  params := .nil
  value := by
    have keyword : toUpper (text "BEGIN") ∈ keywordNames := by decide +kernel
    have letters : toUpper (text "vevent") = toUpper (text "VEVENT") := by decide +kernel
    refine .inr ⟨keyword, ?_⟩
    rw [smallOpening, opening, toUpper_append, toUpper_append, letters]

theorem not_mem_blanks {c : UInt8} (solid : isBlank c = false) {blanks : Text}
    (all : ∀ b ∈ blanks, isBlank b = true) : c ∉ blanks :=
  fun inside => absurd (all c inside) (Bool.eq_false_iff.mp solid)

/-- A line that opens a VEVENT has a spelling that does not. -/
theorem exists_closed_line (line : Text) : ∃ line', LineRespelled line line' ∧
    toUpper line' = toUpper line ∧ trim line' ≠ text "BEGIN:VEVENT" := by
  by_cases opens : trim line = text "BEGIN:VEVENT"
  · obtain ⟨front, back, frontBlank, backBlank, parts⟩ := trim_parts line
    have written : line = front ++ (opening back).text := by
      rw [opening_text, parts, opens, List.append_assoc]
    refine ⟨front ++ (smallOpening back).text, ?_, ?_, ?_⟩
    · rw [written]
      exact .content frontBlank (sameLine_opening back)
    · have letters : toUpper (text "begin:vevent") = toUpper (text "BEGIN:VEVENT") := by decide +kernel
      rw [written, opening_text, smallOpening_text]
      simp only [toUpper_append, letters]
    · intro still
      -- no letter of the new line is a capital
      have solid : isBlank (byte 'B') = false := by decide
      have small : byte 'B' ∉ text "begin:vevent" := by decide +kernel
      have absent : byte 'B' ∉ front ++ (smallOpening back).text := by
        simp only [smallOpening_text, List.mem_append, not_mem_blanks solid frontBlank,
          not_mem_blanks solid backBlank, small, or_false, not_false_eq_true]
      obtain ⟨front', back', _, _, parts'⟩ := trim_parts (front ++ (smallOpening back).text)
      apply absent
      rw [parts', still]
      have capital : byte 'B' ∈ text "BEGIN:VEVENT" := by decide +kernel
      exact List.mem_append_left _ (List.mem_append_right _ capital)
  · exact ⟨line, .same line, rfl, opens⟩

theorem exists_closed_lines (lines : List Text) : ∃ lines' : List Text,
    List.Forall₂ LineRespelled lines lines' ∧ lines'.map toUpper = lines.map toUpper ∧
      ∀ line ∈ lines', trim line ≠ text "BEGIN:VEVENT" := by
  induction lines with
  | nil => exact ⟨[], .nil, rfl, fun line none => absurd none List.not_mem_nil⟩
  | cons line rest ih =>
    obtain ⟨line', respelled, letters, closed⟩ := exists_closed_line line
    obtain ⟨rest', respelledRest, lettersRest, closedRest⟩ := ih
    exact ⟨line' :: rest', .cons respelled respelledRest,
      by rw [List.map_cons, List.map_cons, letters, lettersRest],
      List.forall_mem_cons.mpr ⟨closed, closedRest⟩⟩

/-- Lines of which none opens a VEVENT have no blocks. -/
theorem scanBlocks_closed {lines : List Text} (closed : ∀ line ∈ lines, trim line ≠ text "BEGIN:VEVENT") :
    scanBlocks {} lines = [] := by
  induction lines with
  | nil => rfl
  | cons line rest ih =>
    obtain ⟨first, others⟩ := List.forall_mem_cons.mp closed
    rw [← trim_dropCarriageReturn] at first
    have outside : ({} : LineScan).line (trim (dropCarriageReturn line)) = {} := by
      rw [LineScan.line, if_neg first]
      rfl
    simp only [scanBlocks]
    split_ifs
    · exact ih others
    · rw [outside]
      exact ih others

/-- Every calendar has a spelling of which nothing is returned. -/
theorem exists_silent_spelling (zone : SystemZone) (content : Text) : ∃ content', Respelled content content' ∧
    ∀ now settings, parseCalendarAt zone content' now settings = .ok [] := by
  obtain ⟨lines, respelled, letters, closed⟩ := exists_closed_lines (contentLines content)
  obtain ⟨content', sameLetters, read⟩ := exists_contentLines letters
  refine ⟨content', ⟨sameLetters, read ▸ respelled⟩, fun now settings => ?_⟩
  have noBlocks : veventBlocks content' = [] := by
    rw [← read] at closed
    exact scanBlocks_closed closed
  have noVevents : calendarVevents zone content' = .ok [] := by
    simp only [calendarVevents, noBlocks]
    rfl
  rw [parseCalendarAt_eq_traced, noVevents]
  rfl

/-! ## Calendars with nothing to show -/

/-- No window shows anything of the VEVENT: it is cancelled, its start is not read, or it is a
series whose instants are all behind UNTIL, excluded or overridden. -/
def Silent (zone : SystemZone) (vevents : List Vevent) (v : Vevent) : Prop :=
  v.raw.ev.status = .canceled ∨
    if v.raw.hasRecurrenceId = false ∧ v.raw.hasRrule = true then
      ∀ instant, Recurs zone v.raw.ev v.raw.rrule instant →
        pastUntil v.raw.rrule instant ∨ TakenByText zone vevents v instant
    else v.raw.ev.start = 0

/-- The calendar reads, and no window shows anything of its VEVENTs. -/
def NothingToShow (zone : SystemZone) (content : Text) : Prop :=
  ∃ vevents, calendarVevents zone content = .ok vevents ∧ ∀ v ∈ vevents, Silent zone vevents v

section Windows
variable {zone : SystemZone} {vevents : List Vevent} {v : Vevent}

/-- Two days from an instant on. -/
def settingsFrom : CalendarSettings := { windowFromDayStart := false }

theorem window_from (instant : TimePoint) :
    computeWindow zone instant settingsFrom = ⟨instant, instant + hours 48⟩ := rfl

theorem le_horizon (instant : TimePoint) : instant ≤ instant + hours 48 :=
  Int.le_add_of_nonneg_right (by decide)

variable (zone) in
theorem never_inWindow_iff (instant : TimePoint) :
    (∀ now settings, ¬inWindow instant (computeWindow zone now settings) = true) ↔ instant = 0 := by
  apply Iff.intro
  · intro never
    have outside := never instant settingsFrom
    rw [window_from] at outside
    by_contra dated
    exact outside (by simp [inWindow, dated, le_horizon instant])
  · intro epoch now settings
    simp [inWindow, epoch]

theorem never_due_iff (sound : zone.Sound) {base : ScheduledEvent} {rule : RruleData}
    (forward : 0 ≤ rule.interval) (instant : TimePoint) (taken : Prop) :
    (∀ now settings, Due zone base rule instant (computeWindow zone now settings).start
        (computeWindow zone now settings).deadline → taken) ↔
      (Recurs zone base rule instant → pastUntil rule instant ∨ taken) := by
  simp only [due_iff sound forward, InBounds]
  apply Iff.intro
  · intro never recurs
    by_cases past : pastUntil rule instant
    · exact .inl past
    · right
      apply never instant settingsFrom
      rw [window_from]
      exact ⟨recurs, .inr (le_refl instant), le_horizon instant, past⟩
  · intro silent now settings given
    exact (silent given.1).resolve_left given.2.2.2

theorem tracedEvents_eq_nil_iff (now : TimePoint) (settings : CalendarSettings) :
    tracedEvents zone now settings vevents = [] ↔ ∀ v ∈ vevents,
      masterEvents zone (computeWindow zone now settings) (buildIndex (vevents.map Vevent.raw)) v.raw = [] ∧
      ¬overrideShown (computeWindow zone now settings) v.raw = true := by
  rw [tracedEvents, ← List.length_eq_zero_iff, List.length_insertionSort, List.length_eq_zero_iff,
    List.append_eq_nil_iff, List.flatMap_eq_nil_iff, List.map_eq_nil_iff, List.filter_eq_nil_iff]
  simp only [List.map_eq_nil_iff]
  exact ⟨fun given v member => ⟨given.1 v member, given.2 v member⟩,
    fun given => ⟨fun v member => (given v member).1, fun v member => (given v member).2⟩⟩

variable (vevents) in
theorem override_silent_iff (override : v.raw.hasRecurrenceId = true) :
    (∀ now settings, ¬overrideShown (computeWindow zone now settings) v.raw = true) ↔ Silent zone vevents v := by
  by_cases canceled : v.raw.ev.status = .canceled
  · simp [Silent, overrideShown, canceled]
  · simp only [Silent, canceled, override, false_or, overrideShown, Bool.true_and, ne_eq, not_false_eq_true,
      decide_true, Bool.true_eq_false, false_and, if_false]
    exact never_inWindow_iff zone v.raw.ev.start

theorem master_silent_iff (sound : zone.Sound) (keeps : ∀ w ∈ vevents, KeepsText w.block.eventLines w.raw)
    (member : v ∈ vevents) (forward : 0 ≤ v.raw.rrule.interval) (master : v.raw.hasRecurrenceId = false) :
    (∀ now settings, masterEvents zone (computeWindow zone now settings)
        (buildIndex (vevents.map Vevent.raw)) v.raw = []) ↔ Silent zone vevents v := by
  have nothing (now : TimePoint) (settings : CalendarSettings) : masterEvents zone
        (computeWindow zone now settings) (buildIndex (vevents.map Vevent.raw)) v.raw = [] ↔
      ∀ instant, MasterDue zone (computeWindow zone now settings) v.raw instant →
        TakenByText zone vevents v instant := by
    have shown (instant : TimePoint) : (∃ event ∈ masterEvents zone (computeWindow zone now settings)
        (buildIndex (vevents.map Vevent.raw)) v.raw, event.start = instant) ↔ _ :=
      masterEvents_start_iff keeps member sound forward master instant
    rw [List.eq_nil_iff_forall_not_mem]
    apply Iff.intro
    · intro none instant due
      by_contra free
      obtain ⟨event, inside, _⟩ := (shown instant).mpr ⟨due, free⟩
      exact none event inside
    · intro taken event inside
      obtain ⟨due, free⟩ := (shown event.start).mp ⟨event, inside, rfl⟩
      exact free (taken event.start due)
  simp only [nothing]
  by_cases canceled : v.raw.ev.status = .canceled
  · simp [Silent, MasterDue, canceled]
  by_cases repeats : v.raw.hasRrule = true
  · simp only [Silent, MasterDue, canceled, master, repeats, false_or, ne_eq, not_false_eq_true, true_and,
      and_self, if_true, ← never_due_iff sound forward]
    exact ⟨fun all instant now settings => all now settings instant,
      fun all now settings instant => all instant now settings⟩
  · have single : v.raw.hasRrule = false := Bool.eq_false_iff.mpr repeats
    simp only [Silent, MasterDue, TakenByText, canceled, single, false_or, ne_eq, not_false_eq_true, true_and,
      Bool.false_eq_true, and_false, if_false, false_and, imp_false, not_and, ← never_inWindow_iff zone]
    exact ⟨fun all now settings => all now settings _ rfl,
      fun all now settings instant same => same ▸ all now settings⟩

end Windows

/-- Nothing is returned of a calendar at any time under any settings exactly where it reads and
its VEVENTs have nothing to show. -/
theorem always_empty_iff {zone : SystemZone} (sound : zone.Sound) (content : Text) :
    (∀ now settings, parseCalendarAt zone content now settings = .ok []) ↔ NothingToShow zone content := by
  simp only [parseCalendarAt_eq_traced, NothingToShow]
  cases read : calendarVevents zone content with
  | error e =>
    simp only [Except.map, reduceCtorEq, false_and, exists_false, iff_false, not_forall, not_false_eq_true]
    exact ⟨0, {}, trivial⟩
  | ok vevents =>
    have keeps (w : Vevent) (inside : w ∈ vevents) := calendarVevents_keeps read inside
    have each {v : Vevent} (member : v ∈ vevents) : (∀ now settings,
        masterEvents zone (computeWindow zone now settings) (buildIndex (vevents.map Vevent.raw)) v.raw = [] ∧
          ¬overrideShown (computeWindow zone now settings) v.raw = true) ↔ Silent zone vevents v := by
      simp only [forall_and]
      by_cases override : v.raw.hasRecurrenceId = true
      · rw [override_silent_iff vevents override]
        simp [masterEvents, override]
      · have master : v.raw.hasRecurrenceId = false := Bool.eq_false_iff.mpr override
        rw [master_silent_iff sound (fun w inside => (keeps w inside).text) member
          (keeps v member).rule.forward master]
        simp [overrideShown, master]
    simp only [Except.map, Except.ok.injEq, List.map_eq_nil_iff, tracedEvents_eq_nil_iff, exists_eq_left']
    apply Iff.intro
    · intro always v member
      exact (each member).mp (fun now settings => always now settings v member)
    · intro silent now settings v member
      exact (each member).mpr (silent v member) now settings

/-! ## Calendars that do not mind -/

/-- On exact integers the case of the keywords makes no difference exactly where no spelling has
anything to show. -/
theorem caseIndifferent_iff {zone : SystemZone} (sound : zone.Sound) (content : Text) :
    CaseIndifferent zone content ↔ ∀ content', Respelled content content' → NothingToShow zone content' := by
  simp only [← always_empty_iff sound]
  obtain ⟨silent, spelled, empty⟩ := exists_silent_spelling zone content
  have itself : Respelled content content := ⟨rfl, List.forall₂_same.mpr (fun line _ => .same line)⟩
  apply Iff.intro
  · intro indifferent content' respelled now settings
    rw [indifferent content' respelled, ← indifferent silent spelled]
    exact empty now settings
  · intro nothing content' respelled now settings
    rw [nothing content' respelled, nothing content itself]

def utcVevent : Text := text "BEGIN:VEVENT\nUID:a\nDTSTART:20260904T100000Z\nEND:VEVENT\n"

def smallUtcVevent : Text := text "begin:vevent\nUID:a\nDTSTART:20260904T100000Z\nEND:VEVENT\n"

theorem caseIndifferent_iff_utc : CaseIndifferent (.fixed 0) utcVevent ↔
    ∀ content', Respelled utcVevent content' → NothingToShow (.fixed 0) content' :=
  caseIndifferent_iff (fixed_sound 0) utcVevent

theorem utcVevent_respelled : Respelled utcVevent smallUtcVevent := by
  refine ⟨by decide +kernel, ?_⟩
  have large : contentLines utcVevent = [text "BEGIN:VEVENT", text "UID:a", text "DTSTART:20260904T100000Z",
      text "END:VEVENT"] := by decide +kernel
  have small : contentLines smallUtcVevent = [text "begin:vevent", text "UID:a",
      text "DTSTART:20260904T100000Z", text "END:VEVENT"] := by decide +kernel
  have noBlanks : ∀ c ∈ ([] : Text), isBlank c = true := by simp
  have first : LineRespelled (text "BEGIN:VEVENT") (text "begin:vevent") :=
    .content noBlanks (sameLine_opening [])
  rw [large, small]
  exact .cons first (.cons (.same _) (.cons (.same _) (.cons (.same _) .nil)))

/-- The event is not returned when its BEGIN:VEVENT is in small letters. -/
theorem small_delimiters_hide : ¬∀ (zone : SystemZone) (content : Text), zone.Sound →
    CaseIndifferent zone content := by
  intro always
  have same := always (.fixed 0) utcVevent (fixed_sound 0) smallUtcVevent utcVevent_respelled
    (fromTimeT 1788480000) {}
  exact absurd same (by decide +kernel)

end DivoomDev.Ics.LetterCase
