import DivoomDev.Ics.Unfolding
import DivoomDev.Ics.ParseErrors
import DivoomDev.Ics.Exclusion
import DivoomDev.Ics.Selection

/-! Folded calendars. The scan for VEVENTs reads an unfolded text and takes no notice of where
its lines were cut; the scan for time zones reads the text as it came and does. -/

namespace DivoomDev.Ics.Folding
open DivoomDev.Library.Bytes DivoomDev.Library.Fallible TextUtils Timezone Models Datetime EventBuilder
  Pipeline ParseErrors Properties Exclusion Selection Unfolding

/-! ## Lines in pieces -/

/-- A line cut into a first piece and further ones, each behind the blank that continues it. -/
structure FoldedLine where
  first : Text
  rest : List (UInt8 × Text) := []
  deriving DecidableEq, Repr

namespace FoldedLine

def line (f : FoldedLine) : Text := f.first ++ f.rest.flatMap Prod.snd

def physical (f : FoldedLine) : List Text := f.first :: f.rest.map (fun piece => piece.1 :: piece.2)

/-- The line begins with no blank, and nothing is cut off in front of its first byte. -/
structure Sound (f : FoldedLine) : Prop where
  starts : ¬IsContinuation f.first
  blanks : ∀ piece ∈ f.rest, piece.1 = byte ' ' ∨ piece.1 = byte '\t'
  between : f.rest ≠ [] → f.first ≠ []

instance : DecidablePred Sound := fun f =>
  decidable_of_iff (¬IsContinuation f.first ∧ (∀ piece ∈ f.rest, piece.1 = byte ' ' ∨ piece.1 = byte '\t') ∧
      (f.rest ≠ [] → f.first ≠ []))
    ⟨fun given => ⟨given.1, given.2.1, given.2.2⟩, fun sound => ⟨sound.starts, sound.blanks, sound.between⟩⟩

end FoldedLine

theorem line_starts {f : FoldedLine} (sound : f.Sound) : ¬IsContinuation f.line := by
  by_cases empty : f.first = []
  · have uncut : f.rest = [] := by
      by_contra cut
      exact sound.between cut empty
    simp [FoldedLine.line, empty, uncut, IsContinuation]
  · obtain ⟨c, tail, same⟩ := List.exists_cons_of_ne_nil empty
    have starts := sound.starts
    rw [same, isContinuation_cons] at starts
    rw [FoldedLine.line, same, List.cons_append, isContinuation_cons]
    exact starts

theorem foldl_pieces {pieces : List (UInt8 × Text)}
    (blanks : ∀ piece ∈ pieces, piece.1 = byte ' ' ∨ piece.1 = byte '\t') {u : Unfolded}
    (opened : u.current ≠ []) :
    (pieces.map (fun piece => piece.1 :: piece.2)).foldl Unfolded.line u =
      { u with current := u.current ++ pieces.flatMap Prod.snd } := by
  induction pieces generalizing u with
  | nil => simp
  | cons piece rest ih =>
    obtain ⟨blank, others⟩ := List.forall_mem_cons.mp blanks
    have step : u.line (piece.1 :: piece.2) = { u with current := u.current ++ piece.2 } := by
      simp [Unfolded.line, isContinuation_cons, blank, opened]
    rw [List.map_cons, List.foldl_cons, step, ih others (by simp [opened])]
    simp

theorem lines_folded {f : FoldedLine} (sound : f.Sound) (filled : f.first ≠ []) (u : Unfolded) :
    (f.physical.foldl Unfolded.line u).lines = u.lines ++ [f.line] := by
  obtain ⟨c, tail, same⟩ := List.exists_cons_of_ne_nil filled
  have starts := sound.starts
  have begun : u.line f.first = { done := u.lines ++ [f.first] } := by
    rw [same] at starts ⊢
    simp [Unfolded.line, starts]
  rw [FoldedLine.physical, List.foldl_cons, begun]
  cases cut : f.rest with
  | nil => simp [Unfolded.lines, FoldedLine.line, cut]
  | cons piece rest =>
    have blanks := sound.blanks
    rw [cut] at blanks
    obtain ⟨blank, others⟩ := List.forall_mem_cons.mp blanks
    have reopened : ({ done := u.lines ++ [f.first] } : Unfolded).line (piece.1 :: piece.2) =
        { done := u.lines, current := f.first ++ piece.2 } := by
      simp [Unfolded.line, isContinuation_cons, blank]
    rw [List.map_cons, List.foldl_cons, reopened, foldl_pieces others (by simp [filled])]
    simp [Unfolded.lines, FoldedLine.line, cut, filled]

/-- Lines of which some empty ones are missing. -/
inductive Thinned : List Text → List Text → Prop where
  | nil : Thinned [] []
  | keep (line : Text) {lines lines' : List Text} (rest : Thinned lines lines') :
      Thinned (line :: lines) (line :: lines')
  | drop {lines lines' : List Text} (rest : Thinned lines lines') : Thinned ([] :: lines) lines'

/-- An empty line behind a line in pieces is lost; everything else is unfolded as it was. -/
theorem lines_foldedLines {folded : List FoldedLine} (sound : ∀ f ∈ folded, f.Sound) (u : Unfolded) :
    ∃ added, ((folded.flatMap FoldedLine.physical).foldl Unfolded.line u).lines = u.lines ++ added ∧
      Thinned (folded.map FoldedLine.line) added := by
  induction folded generalizing u with
  | nil => exact ⟨[], by simp, .nil⟩
  | cons f rest ih =>
    obtain ⟨first, others⟩ := List.forall_mem_cons.mp sound
    rw [List.flatMap_cons, List.foldl_append, List.map_cons]
    obtain ⟨added, lines, thinned⟩ := ih others (f.physical.foldl Unfolded.line u)
    rw [lines]
    by_cases empty : f.first = []
    · have uncut : f.rest = [] := by
        by_contra cut
        exact first.between cut empty
      have blank : f.line = [] := by simp [FoldedLine.line, empty, uncut]
      rw [blank]
      by_cases closed : u.current = []
      · exact ⟨[] :: added, by simp [FoldedLine.physical, empty, uncut, Unfolded.line, Unfolded.lines, closed],
          thinned.keep []⟩
      · exact ⟨added, by simp [FoldedLine.physical, empty, uncut, Unfolded.line, Unfolded.lines, closed],
          thinned.drop⟩
    · exact ⟨f.line :: added, by simp [lines_folded first empty], thinned.keep f.line⟩

theorem foldl_whole {lines : List Text} (starts : ∀ line ∈ lines, ¬IsContinuation line) (front : List Text) :
    lines.foldl Unfolded.line { done := front } = { done := front ++ lines } := by
  induction lines generalizing front with
  | nil => simp
  | cons line rest ih =>
    obtain ⟨first, others⟩ := List.forall_mem_cons.mp starts
    have step : ({ done := front } : Unfolded).line line = { done := front ++ [line] } := by
      cases line with
      | nil => rfl
      | cons c tail => simp [Unfolded.line, first, Unfolded.lines]
    rw [List.foldl_cons, step, ih others, List.append_assoc, List.singleton_append]

theorem unfoldedLines_whole {lines : List Text} (starts : ∀ line ∈ lines, ¬IsContinuation line) :
    unfoldedLines lines = lines := by
  rw [unfoldedLines, foldl_whole starts, Unfolded.lines]
  simp

/-! ## Missing empty lines -/

theorem Thinned.append {a a' b b' : List Text} (first : Thinned a a') (second : Thinned b b') :
    Thinned (a ++ b) (a' ++ b') := by
  induction first with
  | nil => exact second
  | keep line _ ih => exact ih.keep line
  | drop _ ih => exact ih.drop

theorem Thinned.blank {lines : List Text} (thinned : Thinned lines []) : ∀ line ∈ lines, line = [] := by
  generalize same : ([] : List Text) = lines' at thinned
  induction thinned with
  | nil => exact fun line member => absurd member List.not_mem_nil
  | keep line _ _ => cases same
  | drop _ ih => exact List.forall_mem_cons.mpr ⟨rfl, ih same⟩

/-- Two states of the scan that differ in empty lines only. -/
structure ThinnedScan (s s' : LineScan) : Prop where
  inEvent : s'.inEvent = s.inEvent
  inAlarm : s'.inAlarm = s.inAlarm
  eventLines : Thinned s.eventLines s'.eventLines
  alarmLines : Thinned s.alarmLines s'.alarmLines

theorem thinnedScan_empty (inEvent : Bool) : ThinnedScan { inEvent := inEvent } { inEvent := inEvent } :=
  ⟨rfl, rfl, .nil, .nil⟩

theorem thinnedScan_line {s s' : LineScan} (thinned : ThinnedScan s s') (t : Text) :
    ThinnedScan (s.line t) (s'.line t) := by
  obtain ⟨inEvent, inAlarm, eventLines, alarmLines⟩ := thinned
  have last : Thinned [t] [t] := .keep t .nil
  simp only [LineScan.line, inEvent, inAlarm]
  split_ifs
  · exact thinnedScan_empty true
  · exact ⟨inEvent, inAlarm, eventLines, alarmLines⟩
  · exact ⟨rfl, rfl, eventLines, .nil⟩
  · exact ⟨rfl, rfl, eventLines, alarmLines⟩
  · exact ⟨rfl, rfl, eventLines, alarmLines.append last⟩
  · exact ⟨rfl, rfl, eventLines.append last, alarmLines⟩

theorem thinnedScan_blank {s s' : LineScan} (thinned : ThinnedScan s s') : ThinnedScan (s.line []) s' := by
  obtain ⟨inEvent, inAlarm, eventLines, alarmLines⟩ := thinned
  have added {lines lines' : List Text} (old : Thinned lines lines') : Thinned (lines ++ [[]]) lines' := by
    simpa using old.append (.drop .nil)
  have notBegin : ([] : Text) ≠ text "BEGIN:VEVENT" := by decide
  have notAlarm : ([] : Text) ≠ text "BEGIN:VALARM" := by decide
  have notEnd : ([] : Text) ≠ text "END:VALARM" := by decide
  simp only [LineScan.line, notBegin, notAlarm, notEnd, if_false]
  split_ifs
  · exact ⟨inEvent, inAlarm, eventLines, alarmLines⟩
  · exact ⟨inEvent, inAlarm, eventLines, added alarmLines⟩
  · exact ⟨inEvent, inAlarm, added eventLines, alarmLines⟩

/-- Blocks of which empty lines are missing, and some that consist of empty lines. -/
inductive FewerBlocks : List VeventBlock → List VeventBlock → Prop where
  | nil : FewerBlocks [] []
  | keep {block block' : VeventBlock} {blocks blocks' : List VeventBlock}
      (eventLines : Thinned block.eventLines block'.eventLines)
      (alarmLines : Thinned block.alarmLines block'.alarmLines) (rest : FewerBlocks blocks blocks') :
      FewerBlocks (block :: blocks) (block' :: blocks')
  | drop {block : VeventBlock} {blocks blocks' : List VeventBlock}
      (blank : ∀ line ∈ block.eventLines, line = []) (rest : FewerBlocks blocks blocks') :
      FewerBlocks (block :: blocks) blocks'

theorem scanBlocks_thinned {lines lines' : List Text} (thinned : Thinned lines lines') {s s' : LineScan}
    (scan : ThinnedScan s s') : FewerBlocks (scanBlocks s lines) (scanBlocks s' lines') := by
  induction thinned generalizing s s' with
  | nil => exact .nil
  | keep line _ ih =>
    simp only [scanBlocks]
    by_cases closes : trim (dropCarriageReturn line) = text "END:VEVENT"
    · simp only [if_pos closes]
      have later := ih (thinnedScan_empty false)
      have eventLines := scan.eventLines
      by_cases emptyBoth : s.eventLines = []
      · rw [emptyBoth] at eventLines
        have empty' : s'.eventLines = [] := by
          generalize s'.eventLines = lines at eventLines
          cases eventLines
          rfl
        simpa [emptyBoth, empty'] using later
      by_cases empty' : s'.eventLines = []
      · rw [empty'] at eventLines
        have dropped : FewerBlocks (⟨s.eventLines, s.alarmLines⟩ :: scanBlocks {} _) (scanBlocks {} _) :=
          later.drop eventLines.blank
        simpa [emptyBoth, empty'] using dropped
      · have kept : FewerBlocks (⟨s.eventLines, s.alarmLines⟩ :: scanBlocks {} _)
            (⟨s'.eventLines, s'.alarmLines⟩ :: scanBlocks {} _) := .keep eventLines scan.alarmLines later
        simpa [emptyBoth, empty'] using kept
    · simp only [if_neg closes]
      exact ih (thinnedScan_line scan _)
  | drop _ ih =>
    have notEnd : trim (dropCarriageReturn []) ≠ text "END:VEVENT" := by decide
    simp only [scanBlocks, if_neg notEnd]
    exact ih (thinnedScan_blank scan)

theorem foldlM_applyLine_thinned {zone : SystemZone} {tz : TimezoneResolver} {lines lines' : List Text}
    (thinned : Thinned lines lines') (re : RawEvent) :
    lines.foldlM (applyLine zone tz) re = lines'.foldlM (applyLine zone tz) re := by
  induction thinned generalizing re with
  | nil => rfl
  | keep line _ ih =>
    rw [List.foldlM_cons, List.foldlM_cons]
    exact bind_congr ih
  | drop _ ih =>
    rw [List.foldlM_cons]
    exact ih re

theorem alarmText_thinned {lines lines' : List Text} (thinned : Thinned lines lines') :
    alarmText lines = alarmText lines' := by
  have general (al : AlarmText) : lines.foldl AlarmText.line al = lines'.foldl AlarmText.line al := by
    induction thinned generalizing al with
    | nil => rfl
    | keep line _ ih => exact ih _
    | drop _ ih => exact ih al
  exact general {}

theorem build_thinned {zone : SystemZone} {tz : TimezoneResolver} {contentLines contentLines' : List Text}
    {alarmLines alarmLines' : List Text} (content : Thinned contentLines contentLines')
    (alarm : Thinned alarmLines alarmLines') :
    build zone tz contentLines alarmLines = build zone tz contentLines' alarmLines' := by
  simp only [build, parseAlarm, foldlM_applyLine_thinned content, alarmText_thinned alarm]

theorem thinned_nil {lines : List Text} (blank : ∀ line ∈ lines, line = []) : Thinned lines [] := by
  induction lines with
  | nil => exact .nil
  | cons line rest ih =>
    obtain ⟨rfl, others⟩ := List.forall_mem_cons.mp blank
    exact (ih others).drop

/-! ## Offsets of time zones -/

/-- A DTSTART or DTEND line denotes the same instant under both tables of offsets. -/
def SameInstants (zone : SystemZone) (tz tz' : TimezoneResolver) (lines : List Text) : Prop :=
  ∀ property ∈ values "DTSTART" lines ++ values "DTEND" lines,
    parseIcsDatetime zone tz (makeDatetimeInfo property.1 property.2) =
      parseIcsDatetime zone tz' (makeDatetimeInfo property.1 property.2)

instance (zone : SystemZone) (tz tz' : TimezoneResolver) : DecidablePred (SameInstants zone tz tz') :=
  fun _ => inferInstanceAs (Decidable (∀ _ ∈ _, _))

theorem applyLine_congr {zone : SystemZone} {tz tz' : TimezoneResolver} {line : Text}
    (same : SameInstants zone tz tz' [line]) (re : RawEvent) :
    applyLine zone tz re line = applyLine zone tz' re line := by
  have read (times : nameOf line = text "DTSTART" ∨ nameOf line = text "DTEND") :
      parseIcsDatetime zone tz (makeDatetimeInfo (splitIcsLine (trim line)).2.1 (splitIcsLine (trim line)).2.2) =
        parseIcsDatetime zone tz'
          (makeDatetimeInfo (splitIcsLine (trim line)).2.1 (splitIcsLine (trim line)).2.2) := by
    apply same
    simp only [List.mem_append, values_singleton]
    exact times.imp (fun start => by simp [start]) (fun end_ => by simp [end_])
  rw [applyLine_eq, applyLine_eq]
  by_cases start : nameOf line = text "DTSTART"
  · simp only [applyProperty, read (.inl start)]
  by_cases end_ : nameOf line = text "DTEND"
  · simp only [applyProperty, read (.inr end_)]
  simp only [applyProperty, start, end_, if_false]

theorem build_congr {zone : SystemZone} {tz tz' : TimezoneResolver} {contentLines : List Text}
    (same : SameInstants zone tz tz' contentLines) (alarmLines : List Text) :
    build zone tz contentLines alarmLines = build zone tz' contentLines alarmLines := by
  have lines (re : RawEvent) :
      contentLines.foldlM (applyLine zone tz) re = contentLines.foldlM (applyLine zone tz') re := by
    induction contentLines generalizing re with
    | nil => rfl
    | cons line rest ih =>
      have split : ∀ property ∈ values "DTSTART" ([line] ++ rest) ++ values "DTEND" ([line] ++ rest),
          parseIcsDatetime zone tz (makeDatetimeInfo property.1 property.2) =
            parseIcsDatetime zone tz' (makeDatetimeInfo property.1 property.2) := same
      simp only [values_append, List.mem_append] at split
      have first : SameInstants zone tz tz' [line] := by
        intro property member
        rcases List.mem_append.mp member with start | end_
        · exact split property (.inl (.inl start))
        · exact split property (.inr (.inl end_))
      have others : SameInstants zone tz tz' rest := by
        intro property member
        rcases List.mem_append.mp member with start | end_
        · exact split property (.inl (.inr start))
        · exact split property (.inr (.inr end_))
      rw [List.foldlM_cons, List.foldlM_cons, applyLine_congr first]
      exact bind_congr (ih others)
  simp only [build, lines]

/-! ## Folded and unfolded calendars -/

/-- The block has a property, or its alarm does not make the parser throw. -/
def HasLineOrNumbers (block : VeventBlock) : Prop :=
  (∃ line ∈ block.eventLines, line ≠ []) ∨ ∀ field ∈ triggerFields block.alarmLines, IsNumber field

instance : DecidablePred HasLineOrNumbers := fun _ => inferInstanceAs (Decidable (_ ∨ _))

theorem build_blank {zone : SystemZone} {tz : TimezoneResolver} {block : VeventBlock}
    (blank : ∀ line ∈ block.eventLines, line = []) (numbers : HasLineOrNumbers block) :
    ∃ re, build zone tz block.eventLines block.alarmLines = .ok re ∧ re.ev.uid = [] := by
  have fields := numbers.resolve_left (fun given =>
    given.elim (fun line inside => inside.2 (blank line inside.1)))
  obtain ⟨alarms, parsed⟩ := (returns_parseAlarm block.alarmLines).mpr fields
  refine ⟨{ ev := { alarms := alarms } }, ?_, rfl⟩
  rw [build, foldlM_applyLine_thinned (thinned_nil blank), parsed]
  rfl

def keptRaws (built : List Vevent) : List RawEvent :=
  (built.filter (fun v => v.raw.ev.uid ≠ [])).map Vevent.raw

theorem collectRawEvents_blocks (zone : SystemZone) (tz : TimezoneResolver) (unfolded : Text) :
    collectRawEvents zone tz unfolded =
      ((scanBlocks {} (getlines lineFeed unfolded)).mapM (buildVevent zone tz)).map keptRaws := by
  have blocks := collect_eq_blocks zone tz (getlines lineFeed unfolded) {}
  simp only [List.nil_append] at blocks
  exact blocks

theorem mapM_keptRaws {zone : SystemZone} {tz : TimezoneResolver} (block : VeventBlock)
    (blocks : List VeventBlock) :
    ((block :: blocks).mapM (buildVevent zone tz)).map keptRaws =
      (build zone tz block.eventLines block.alarmLines).bind (fun re =>
        ((blocks.mapM (buildVevent zone tz)).map keptRaws).map (fun raws =>
          if re.ev.uid = [] then raws else re :: raws)) := by
  rw [List.mapM_cons, buildVevent]
  cases build zone tz block.eventLines block.alarmLines with
  | error e => rfl
  | ok re =>
    cases blocks.mapM (buildVevent zone tz) with
    | error e => rfl
    | ok rest =>
      by_cases anonymous : re.ev.uid = [] <;>
        simp [Except.map, Except.bind, bind, pure, Except.pure, keptRaws, anonymous]

theorem keptRaws_fewer {zone : SystemZone} {tz tz' : TimezoneResolver} {blocks blocks' : List VeventBlock}
    (fewer : FewerBlocks blocks blocks') (same : ∀ block ∈ blocks, SameInstants zone tz tz' block.eventLines)
    (numbers : ∀ block ∈ blocks, HasLineOrNumbers block) :
    (blocks.mapM (buildVevent zone tz)).map keptRaws = (blocks'.mapM (buildVevent zone tz')).map keptRaws := by
  induction fewer with
  | nil => rfl
  | @keep block block' blocks blocks' eventLines alarmLines _ ih =>
    obtain ⟨first, others⟩ := List.forall_mem_cons.mp same
    have later := ih others (List.forall_mem_cons.mp numbers).2
    rw [mapM_keptRaws, mapM_keptRaws, ← later, build_congr first, build_thinned eventLines alarmLines]
  | @drop block blocks blocks' blank _ ih =>
    obtain ⟨here, others⟩ := List.forall_mem_cons.mp numbers
    obtain ⟨re, built, anonymous⟩ : ∃ re, build zone tz block.eventLines block.alarmLines = .ok re ∧ _ :=
      build_blank blank here
    rw [mapM_keptRaws, built, ih (List.forall_mem_cons.mp same).2 others]
    cases blocks'.mapM (buildVevent zone tz') with
    | error e => rfl
    | ok rest => simp [Except.map, Except.bind, anonymous]

/-- The second text has the lines of the first, which has no continuations, in pieces. -/
structure IsFolding (unfolded folded : Text) (pieces : List FoldedLine) : Prop where
  sound : ∀ f ∈ pieces, f.Sound
  lines : physicalLines unfolded = pieces.map FoldedLine.line
  physical : physicalLines folded = pieces.flatMap FoldedLine.physical

theorem veventBlocks_folded {unfolded folded : Text} {pieces : List FoldedLine}
    (folds : IsFolding unfolded folded pieces) : FewerBlocks (veventBlocks unfolded) (veventBlocks folded) := by
  have starts : ∀ line ∈ pieces.map FoldedLine.line, ¬IsContinuation line := by
    intro line member
    obtain ⟨f, inside, rfl⟩ := List.mem_map.mp member
    exact line_starts (folds.sound f inside)
  obtain ⟨added, lines, thinned⟩ := lines_foldedLines folds.sound {}
  have unfolds : unfoldedLines (pieces.flatMap FoldedLine.physical) = added := lines
  rw [veventBlocks_eq, veventBlocks_eq, folds.lines, folds.physical, unfoldedLines_whole starts, unfolds]
  exact scanBlocks_thinned thinned (thinnedScan_empty false)

/-- A folding returns what the unfolded text returns, where each DTSTART and DTEND denotes the
same instant under the offsets that the scan for time zones finds in either text. -/
theorem parseCalendarAt_folded {zone : SystemZone} {unfolded folded : Text} {pieces : List FoldedLine}
    (folds : IsFolding unfolded folded pieces)
    (same : ∀ block ∈ veventBlocks unfolded,
      SameInstants zone (collectVtimezones unfolded) (collectVtimezones folded) block.eventLines)
    (numbers : ∀ block ∈ veventBlocks unfolded, HasLineOrNumbers block) (now : TimePoint)
    (settings : CalendarSettings) :
    parseCalendarAt zone folded now settings = parseCalendarAt zone unfolded now settings := by
  have raws := keptRaws_fewer (veventBlocks_folded folds) same numbers
  simp only [parseCalendarAt, collectRawEvents_blocks]
  simp only [veventBlocks] at raws
  rw [raws]

/-- An event in a time zone of the calendar, with its lines cut at different places. -/
def zonedPieces (tzid summary : FoldedLine) : List FoldedLine :=
  [⟨text "BEGIN:VTIMEZONE", []⟩, tzid, ⟨text "BEGIN:STANDARD", []⟩, ⟨text "TZOFFSETTO:+0500", []⟩,
    ⟨text "END:STANDARD", []⟩, ⟨text "END:VTIMEZONE", []⟩, ⟨text "BEGIN:VEVENT", []⟩,
    ⟨text "UID:a", []⟩, summary, ⟨text "DTSTART;TZID=Custom:20260904T150000", []⟩,
    ⟨text "END:VEVENT", []⟩]

def unfoldedText (pieces : List FoldedLine) : Text := joinLines lineFeed (pieces.map FoldedLine.line)

def foldedText (pieces : List FoldedLine) : Text := joinLines lineFeed (pieces.flatMap FoldedLine.physical)

def foldedSummary : List FoldedLine :=
  zonedPieces ⟨text "TZID:Custom", []⟩ ⟨text "SUMMARY:Team", [(byte ' ', text " Sync")]⟩

def foldedTzid : List FoldedLine :=
  zonedPieces ⟨text "TZID:Cus", [(byte ' ', text "tom")]⟩ ⟨text "SUMMARY:Team Sync", []⟩

theorem parseCalendarAt_folded_summary :
    parseCalendarAt (.fixed 0) (foldedText foldedSummary) (fromTimeT 1788480000) {} =
      parseCalendarAt (.fixed 0) (unfoldedText foldedSummary) (fromTimeT 1788480000) {} :=
  parseCalendarAt_folded
    (show IsFolding (unfoldedText foldedSummary) (foldedText foldedSummary) foldedSummary from
      ⟨by decide +kernel, by decide +kernel, by decide +kernel⟩)
    (by decide +kernel) (by decide +kernel) _ _

/-- Where the TZID of a time zone is cut, its offset is lost and the event moves by five hours. -/
theorem folded_tzid_lost :
    ¬∀ zone unfolded folded pieces, IsFolding unfolded folded pieces →
      ∀ now settings, parseCalendarAt zone folded now settings = parseCalendarAt zone unfolded now settings := by
  intro always
  have folds : IsFolding (unfoldedText foldedTzid) (foldedText foldedTzid) foldedTzid :=
    ⟨by decide +kernel, by decide +kernel, by decide +kernel⟩
  have same := always (.fixed 0) _ _ _ folds (fromTimeT 1788480000) {}
  exact absurd same (by decide +kernel)

end DivoomDev.Ics.Folding
