import DivoomDev.Ics.Unfolding
import DivoomDev.Ics.Selection

/-! The order of the VEVENTs in a calendar. The scans keep nothing from one block to the next,
overrides are looked up by what they are and not by where they stand, and the result is
sorted, so the order shows only among events with equal starts. -/

namespace DivoomDev.Ics.Reordering
open DivoomDev.Library.Bytes DivoomDev.Library.Fallible TextUtils Timezone Models Datetime Recurrence EventBuilder
  Window OverrideApplier Pipeline Selection Unfolding

/-! ## The raw events in another order -/

theorem isOverridden_perm {raws raws' : List RawEvent} (perm : raws.Perm raws') (uid instanceKey : Text) :
    isOverridden (buildIndex raws) uid instanceKey = isOverridden (buildIndex raws') uid instanceKey := by
  rw [Bool.eq_iff_iff, isOverridden_iff, isOverridden_iff]
  simp only [perm.mem_iff]

theorem selectEvents_of_perm (zone : SystemZone) (now : TimePoint) (settings : CalendarSettings)
    {raws raws' : List RawEvent} (perm : raws.Perm raws') :
    (selectEvents zone now settings raws).Perm (selectEvents zone now settings raws') := by
  have masters : masterEvents zone (computeWindow zone now settings) (buildIndex raws) =
      masterEvents zone (computeWindow zone now settings) (buildIndex raws') := by
    funext r
    simp only [masterEvents, isOverridden_perm perm]
  have overrides : (inWindowOverrides raws (computeWindow zone now settings)).Perm
      (inWindowOverrides raws' (computeWindow zone now settings)) := (perm.filter _).map _
  calc List.Perm (selectEvents zone now settings raws)
        (raws.flatMap (masterEvents zone (computeWindow zone now settings) (buildIndex raws)) ++
          inWindowOverrides raws (computeWindow zone now settings)) := selectEvents_perm ..
    List.Perm _ (raws'.flatMap (masterEvents zone (computeWindow zone now settings) (buildIndex raws')) ++
        inWindowOverrides raws' (computeWindow zone now settings)) := by
      rw [masters]
      exact (perm.flatMap_right _).append overrides
    List.Perm _ (selectEvents zone now settings raws') := (selectEvents_perm ..).symm

theorem starts_of_perm {events events' : List ScheduledEvent} (perm : events.Perm events')
    (sorted : events.Pairwise (fun a b => a.start ≤ b.start))
    (sorted' : events'.Pairwise (fun a b => a.start ≤ b.start)) :
    events.map (fun event => event.start) = events'.map (fun event => event.start) := by
  apply List.Perm.eq_of_pairwise (fun a b _ _ => le_antisymm (α := Int)) _ _ (perm.map _)
  · exact List.pairwise_map.mpr sorted
  · exact List.pairwise_map.mpr sorted'

theorem selectEvents_sorted (zone : SystemZone) (now : TimePoint) (settings : CalendarSettings)
    (raws : List RawEvent) :
    (selectEvents zone now settings raws).Pairwise (fun a b => a.start ≤ b.start) := by
  have total : Std.Total (fun a b : ScheduledEvent => a.start ≤ b.start) := ⟨fun a b => le_total _ _⟩
  have trans : IsTrans ScheduledEvent (fun a b => a.start ≤ b.start) := ⟨fun _ _ _ => le_trans⟩
  exact List.pairwise_insertionSort _ _

/-! ## The scan for VEVENTs, block by block -/

def scanLine (s : LineScan) (physical : Text) : LineScan :=
  let t := trim (dropCarriageReturn physical)
  if t = text "END:VEVENT" then {} else s.line t

theorem scanBlocks_append (s : LineScan) (front back : List Text) :
    scanBlocks s (front ++ back) = scanBlocks s front ++ scanBlocks (front.foldl scanLine s) back := by
  induction front generalizing s with
  | nil => rfl
  | cons line rest ih =>
    simp only [List.cons_append, scanBlocks, List.foldl_cons, scanLine]
    by_cases closes : trim (dropCarriageReturn line) = text "END:VEVENT"
    · simp only [if_pos closes, ih, List.append_assoc]
    · simp only [if_neg closes, ih]

/-- One part of a calendar, as its physical lines: a VEVENT, or anything that stands around the
VEVENTs. -/
inductive Block where
  | around (physical : List Text)
  | vevent (physical : List Text)
  deriving DecidableEq, Repr

namespace Block

def physical : Block → List Text
  | around physical => physical
  | vevent physical => physical

def around? : Block → Option (List Text)
  | around physical => some physical
  | vevent _ => none

def vevent? : Block → Option (List Text)
  | around _ => none
  | vevent physical => some physical

end Block

/-- Lines that begin with a line of their own and close each VTIMEZONE that they open. -/
structure IsAround (physical : List Text) : Prop where
  opens : OpensLine physical
  closes : ∀ scan : VtimezoneScan, scan.inTz = false → (physical.foldl VtimezoneScan.line scan).inTz = false

/-- Lines that unfold to a closed VEVENT. None of them begins a VTIMEZONE. -/
structure IsVevent (physical : List Text) : Prop where
  opens : OpensLine physical
  begins : ∃ first rest, unfoldedLines physical = first :: rest ∧ trim first = text "BEGIN:VEVENT"
  ends : ∃ front last, unfoldedLines physical = front ++ [last] ∧ trim last = text "END:VEVENT"
  plain : ∀ line ∈ physical, startsWith "BEGIN:VTIMEZONE" (trim line) = false

def Block.Sound : Block → Prop
  | .around physical => IsAround physical
  | .vevent physical => IsVevent physical

/-- A closed VTIMEZONE may stand around the VEVENTs. -/
theorem vtimezone_isAround {first : Text} {rest : List Text} (filled : first ≠ [])
    (starts : ¬IsContinuation first) {front : List Text} {last : Text} (ends : first :: rest = front ++ [last])
    (closes : startsWith "END:VTIMEZONE" (trim last) = true)
    (noBegin : startsWith "BEGIN:VTIMEZONE" (trim last) = false) : IsAround (first :: rest) where
  opens := ⟨first, rest, rfl, filled, starts⟩
  closes scan _ := by
    rw [ends, List.foldl_append, List.foldl_cons, List.foldl_nil]
    simp only [VtimezoneScan.line, trim_dropCarriageReturn, noBegin, closes, Bool.false_eq_true, if_false,
      if_true]
    by_cases outside : (front.foldl VtimezoneScan.line scan).inTz = true
    · simp [outside]
    · simp [outside]

section Scans
variable {blocks : List Block}

theorem foldl_vtimezone_vevent {physical : List Text}
    (plain : ∀ line ∈ physical, startsWith "BEGIN:VTIMEZONE" (trim line) = false) {scan : VtimezoneScan}
    (outside : scan.inTz = false) : physical.foldl VtimezoneScan.line scan = scan := by
  induction physical with
  | nil => rfl
  | cons line rest ih =>
    obtain ⟨first, others⟩ := List.forall_mem_cons.mp plain
    have same : scan.line line = scan := by
      simp [VtimezoneScan.line, trim_dropCarriageReturn, first, outside]
    rw [List.foldl_cons, same]
    exact ih others

/-- The VEVENTs leave no trace in the scan for time zones. -/
theorem foldl_vtimezone_blocks (sound : ∀ b ∈ blocks, b.Sound) {scan : VtimezoneScan}
    (outside : scan.inTz = false) :
    (blocks.flatMap Block.physical).foldl VtimezoneScan.line scan =
      ((blocks.map Block.around?).flatMap (fun lines => lines.getD [])).foldl VtimezoneScan.line scan := by
  induction blocks generalizing scan with
  | nil => rfl
  | cons b rest ih =>
    obtain ⟨first, others⟩ := List.forall_mem_cons.mp sound
    rw [List.flatMap_cons, List.foldl_append, List.map_cons, List.flatMap_cons, List.foldl_append]
    cases b with
    | around physical => exact ih others (first.closes scan outside)
    | vevent physical =>
      show List.foldl _ (physical.foldl VtimezoneScan.line scan) _ = _
      rw [foldl_vtimezone_vevent first.plain outside]
      exact ih others outside

/-- A VEVENT is scanned in the same way wherever it stands, and leaves the scan as it began. -/
theorem scan_vevent {physical : List Text} (sound : IsVevent physical) (s : LineScan) :
    scanBlocks s (unfoldedLines physical) = scanBlocks {} (unfoldedLines physical) ∧
      (unfoldedLines physical).foldl scanLine s = {} := by
  apply And.intro
  · obtain ⟨first, rest, same, begins⟩ := sound.begins
    have notEnd : text "BEGIN:VEVENT" ≠ text "END:VEVENT" := by decide
    simp [same, scanBlocks, LineScan.line, trim_dropCarriageReturn, begins, notEnd]
  · obtain ⟨front, last, same, ends⟩ := sound.ends
    simp [same, scanLine, trim_dropCarriageReturn, ends]

/-- The VEVENTs that stand in the parts around, from a state of the scan on. -/
def aroundBlocks : LineScan → List (Option (List Text)) → List VeventBlock
  | _, [] => []
  | s, some physical :: rest =>
      scanBlocks s (unfoldedLines physical) ++ aroundBlocks ((unfoldedLines physical).foldl scanLine s) rest
  | _, none :: rest => aroundBlocks {} rest

theorem scanBlocks_blocks (sound : ∀ b ∈ blocks, b.Sound) (s : LineScan) :
    (scanBlocks s (blocks.flatMap (fun b => unfoldedLines b.physical))).Perm
      (aroundBlocks s (blocks.map Block.around?) ++
        (blocks.filterMap Block.vevent?).flatMap (fun physical => scanBlocks {} (unfoldedLines physical))) := by
  induction blocks generalizing s with
  | nil => exact .refl _
  | cons b rest ih =>
    obtain ⟨first, others⟩ := List.forall_mem_cons.mp sound
    rw [List.flatMap_cons, scanBlocks_append]
    cases b with
    | around physical =>
      have later := (ih others ((unfoldedLines physical).foldl scanLine s)).append_left
        (scanBlocks s (unfoldedLines physical))
      rwa [← List.append_assoc] at later
    | vevent physical =>
      obtain ⟨same, left⟩ := scan_vevent first s
      simp only [Block.physical, same, left]
      calc List.Perm (scanBlocks {} (unfoldedLines physical) ++ scanBlocks {} _)
            (scanBlocks {} (unfoldedLines physical) ++ (aroundBlocks {} (rest.map Block.around?) ++ _)) :=
          (ih others {}).append_left _
        List.Perm _ (aroundBlocks {} (rest.map Block.around?) ++ (scanBlocks {} (unfoldedLines physical) ++ _)) := by
          rw [← List.append_assoc, ← List.append_assoc]
          exact List.perm_append_comm.append_right _

end Scans

/-! ## The calendar in another order -/

/-- The same parts around the VEVENTs, and the same VEVENTs in another order. -/
structure Reordered (blocks blocks' : List Block) : Prop where
  around : blocks.map Block.around? = blocks'.map Block.around?
  vevents : (blocks.filterMap Block.vevent?).Perm (blocks'.filterMap Block.vevent?)

theorem reordered_sound {blocks blocks' : List Block} (reordered : Reordered blocks blocks')
    (sound : ∀ b ∈ blocks, b.Sound) : ∀ b ∈ blocks', b.Sound := by
  intro b member
  cases b with
  | around physical =>
    have listed : some physical ∈ blocks.map Block.around? :=
      reordered.around ▸ List.mem_map_of_mem (f := Block.around?) member
    obtain ⟨other, inside, same⟩ := List.mem_map.mp listed
    cases other with
    | around other =>
      cases same
      exact sound _ inside
    | vevent other => cases same
  | vevent physical =>
    have listed : physical ∈ blocks.filterMap Block.vevent? :=
      reordered.vevents.mem_iff.mpr (List.mem_filterMap.mpr ⟨_, member, rfl⟩)
    obtain ⟨other, inside, same⟩ := List.mem_filterMap.mp listed
    cases other with
    | around other => cases same
    | vevent other =>
      cases same
      exact sound _ inside

theorem collectVtimezones_eq (content : Text) :
    collectVtimezones content = ((physicalLines content).foldl VtimezoneScan.line {}).vtzOffsets := by
  have same (scan : VtimezoneScan) (line : Text) : scan.line (dropCarriageReturn line) = scan.line line := by
    simp only [VtimezoneScan.line, trim_dropCarriageReturn]
  simp only [collectVtimezones, physicalLines, List.foldl_map, same]

theorem collectVtimezones_reordered {blocks blocks' : List Block} (reordered : Reordered blocks blocks')
    (sound : ∀ b ∈ blocks, b.Sound) {content content' : Text}
    (lines : physicalLines content = blocks.flatMap Block.physical)
    (lines' : physicalLines content' = blocks'.flatMap Block.physical) :
    collectVtimezones content' = collectVtimezones content := by
  rw [collectVtimezones_eq, collectVtimezones_eq, lines, lines', foldl_vtimezone_blocks sound rfl,
    foldl_vtimezone_blocks (reordered_sound reordered sound) rfl, reordered.around]

theorem veventBlocks_reordered {blocks blocks' : List Block} (reordered : Reordered blocks blocks')
    (sound : ∀ b ∈ blocks, b.Sound) {content content' : Text}
    (lines : physicalLines content = blocks.flatMap Block.physical)
    (lines' : physicalLines content' = blocks'.flatMap Block.physical) :
    (veventBlocks content).Perm (veventBlocks content') := by
  have byParts (blocks : List Block) (sound : ∀ b ∈ blocks, b.Sound) :
      (scanBlocks {} (unfoldedLines (blocks.flatMap Block.physical))).Perm
        (aroundBlocks {} (blocks.map Block.around?) ++
          (blocks.filterMap Block.vevent?).flatMap (fun physical => scanBlocks {} (unfoldedLines physical))) := by
    have opens : ∀ b ∈ blocks, OpensLine b.physical := by
      intro b member
      cases b with
      | around physical => exact IsAround.opens (sound _ member)
      | vevent physical => exact IsVevent.opens (sound _ member)
    rw [unfoldedLines_flatMap opens]
    exact scanBlocks_blocks sound {}
  rw [veventBlocks_eq, veventBlocks_eq, lines, lines']
  calc List.Perm (scanBlocks {} (unfoldedLines (blocks.flatMap Block.physical)))
        (aroundBlocks {} (blocks.map Block.around?) ++
          (blocks.filterMap Block.vevent?).flatMap (fun physical => scanBlocks {} (unfoldedLines physical))) :=
      byParts blocks sound
    List.Perm _ (aroundBlocks {} (blocks'.map Block.around?) ++
        (blocks'.filterMap Block.vevent?).flatMap (fun physical => scanBlocks {} (unfoldedLines physical))) := by
      rw [reordered.around]
      exact (reordered.vevents.flatMap_right _).append_left _
    List.Perm _ (scanBlocks {} (unfoldedLines (blocks'.flatMap Block.physical))) :=
      (byParts blocks' (reordered_sound reordered sound)).symm

/-- A calendar whose VEVENTs stand in another order gives the same events, at the same sequence
of starts. -/
theorem parseCalendarAt_reordered {zone : SystemZone} {now : TimePoint} {settings : CalendarSettings}
    {blocks blocks' : List Block} {content content' : Text} (sound : ∀ b ∈ blocks, b.Sound)
    (reordered : Reordered blocks blocks') (lines : physicalLines content = blocks.flatMap Block.physical)
    (lines' : physicalLines content' = blocks'.flatMap Block.physical) {events : List ScheduledEvent}
    (returned : parseCalendarAt zone content now settings = .ok events) :
    ∃ events', parseCalendarAt zone content' now settings = .ok events' ∧ events.Perm events' ∧
      events.map (fun event => event.start) = events'.map (fun event => event.start) := by
  obtain ⟨vevents, read, rfl⟩ := parseCalendarAt_ok returned
  obtain ⟨built, mapped, same⟩ := bind_eq_ok.mp read
  cases same
  obtain ⟨built', mapped', perm⟩ := mapM_perm (veventBlocks_reordered reordered sound lines lines') mapped
  have read' : calendarVevents zone content' = .ok (built'.filter (fun v => v.raw.ev.uid ≠ [])) := by
    rw [calendarVevents, collectVtimezones_reordered reordered sound lines lines', mapped']
    rfl
  have selected := selectEvents_of_perm zone now settings
    ((perm.filter (fun v => v.raw.ev.uid ≠ [])).map Vevent.raw)
  exact ⟨_, parseCalendarAt_eq read' now settings, selected,
    starts_of_perm selected (selectEvents_sorted ..) (selectEvents_sorted ..)⟩

/-- A time zone, a daily series in it and an override of its second day. -/
def zoneLines : List Text :=
  [text "BEGIN:VTIMEZONE", text "TZID:Custom", text "BEGIN:STANDARD", text "TZOFFSETTO:+0500",
    text "END:STANDARD", text "END:VTIMEZONE"]

def masterLines : List Text :=
  [text "BEGIN:VEVENT", text "UID:a", text "DTSTART;TZID=Custom:20260904T150000", text "RRULE:FREQ=DAILY",
    text "END:VEVENT"]

def overrideLines : List Text :=
  [text "BEGIN:VEVENT", text "UID:a", text "RECURRENCE-ID:20260905T100000",
    text "DTSTART:20260905T120000Z", text "END:VEVENT"]

theorem overrideFirst_starts :
    ∃ events', parseCalendarAt (.fixed 0) (joinLines lineFeed (zoneLines ++ overrideLines ++ masterLines))
        (fromTimeT 1788480000) {} = .ok events' ∧
      events'.map (fun event => event.start) = [fromTimeT 1788516000, fromTimeT 1788609600] := by
  have sound : ∀ b ∈ [Block.around zoneLines, .vevent masterLines, .vevent overrideLines], b.Sound := by
    intro b member
    simp only [List.mem_cons, List.not_mem_nil, or_false] at member
    rcases member with rfl | rfl | rfl
    · exact vtimezone_isAround (by decide) (by decide)
        (show zoneLines = zoneLines.dropLast ++ [text "END:VTIMEZONE"] by decide) (by decide) (by decide)
    · exact ⟨⟨_, _, rfl, by decide, by decide⟩, ⟨_, _, rfl, by decide⟩,
        ⟨masterLines.dropLast, text "END:VEVENT", by decide, by decide⟩, by decide⟩
    · exact ⟨⟨_, _, rfl, by decide, by decide⟩, ⟨_, _, rfl, by decide⟩,
        ⟨overrideLines.dropLast, text "END:VEVENT", by decide, by decide⟩, by decide⟩
  have reordered : Reordered [.around zoneLines, .vevent masterLines, .vevent overrideLines]
      [.around zoneLines, .vevent overrideLines, .vevent masterLines] := ⟨rfl, .swap ..⟩
  obtain ⟨events', returned, _, starts⟩ := parseCalendarAt_reordered sound reordered
    (show physicalLines (joinLines lineFeed (zoneLines ++ masterLines ++ overrideLines)) = _
      by decide +kernel)
    (show physicalLines (joinLines lineFeed (zoneLines ++ overrideLines ++ masterLines)) = _ by decide +kernel)
    (show parseCalendarAt (.fixed 0) _ (fromTimeT 1788480000) {} = .ok
      [occurrence { uid := text "a", start := fromTimeT 1788516000, repeat_ := .daily } (fromTimeT 1788516000),
        { uid := text "a", start := fromTimeT 1788609600 }] by decide +kernel)
  exact ⟨events', returned, starts.symm⟩

end DivoomDev.Ics.Reordering
