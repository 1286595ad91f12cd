import DivoomDev.Ics.Instants
import DivoomDev.Ics.SubComponents
import DivoomDev.Ics.Reordering
import DivoomDev.Ics.RoundTrip

/-! A writer for time zones that are whole hours ahead of UTC, and the offsets that are read back. -/

namespace DivoomDev.Ics.WrittenZones
open DivoomDev.Library.Bytes TextUtils Timezone Models Datetime Instants Pipeline Unfolding SubComponents Reordering
  RoundTrip

/-! ## Zones -/

/-- What stands behind TZID, in a VTIMEZONE and as a parameter. -/
structure ZoneName where
  bytes : Text
  filled : bytes ≠ []
  tight : Tight bytes
  plain : ∀ c ∈ bytes, c ∉ [byte '"', byte ';', byte ':', byte ',', lineFeed, carriageReturn]
  noDate : find (text "VALUE=DATE") bytes = none

/-- A time zone so many hours ahead of UTC, with what else a writer notes in it. -/
structure ZonePlan where
  name : ZoneName
  hours : Int
  range : -99 ≤ hours ∧ hours ≤ 99
  front : List Text := []
  back : List Text := []
  noted : ∀ line ∈ front ++ back, isMark (trim line) = false ∧ startsWith "TZID:" (trim line) = false ∧
    startsWith "TZOFFSETTO:" (trim line) = false
  before : List SubComponent := []
  after : List SubComponent := []
  summer : ∀ s ∈ before ++ after, s.kind = .daylight

def offsetText (hours : Int) : Text :=
  (if 0 ≤ hours then byte '+' else byte '-') :: (twoDigits |hours| ++ twoDigits 0)

namespace ZonePlan

def tzidLine (z : ZonePlan) : Text := text "TZID:" ++ z.name.bytes

def offsetLine (z : ZonePlan) : Text := text "TZOFFSETTO:" ++ offsetText z.hours

end ZonePlan

/-! ## Lines of a zone -/

theorem startsWith_append {s : String} {front : Text}
    (differs : (text s).take front.length ≠ front.take (text s).length) (rest : Text) :
    startsWith s (front ++ rest) = false := by
  rw [← Bool.not_eq_true, startsWith, List.isPrefixOf_iff_prefix]
  intro starts
  have whole := List.prefix_iff_eq_take.mp starts
  have left : (text s).take front.length = (front ++ rest).take (min front.length (text s).length) := by
    conv_lhs => rw [whole, List.take_take]
  have right : front.take (text s).length = (front ++ rest).take (min (text s).length front.length) := by
    rw [← List.take_take, List.take_left]
  apply differs
  rw [left, right, Nat.min_comm]

theorem tight_append {front back : Text} (opened : front ≠ []) (solid : isBlank (front.head opened) = false)
    (filled : back ≠ []) (tight : Tight back) : Tight (front ++ back) where
  head c first := by
    rw [List.head?_append_of_ne_nil _ opened, List.head?_eq_some_head opened, Option.mem_some_iff] at first
    rw [← first]
    exact solid
  last := by
    rw [List.getLast?_append_of_ne_nil _ filled]
    exact tight.last

theorem offsetText_tight (hours : Int) : Tight (offsetText hours) where
  head c first := by
    rw [offsetText, List.head?_cons, Option.mem_some_iff] at first
    split_ifs at first <;> subst first <;> decide
  last c final := by
    have zero : (offsetText hours).getLast? = some (digit 0) := rfl
    rw [zero, Option.mem_some_iff] at final
    rw [← final]
    decide

namespace ZonePlan
variable (z : ZonePlan)

theorem tzidLine_tight : Tight z.tzidLine := tight_append (by decide) (by decide) z.name.filled z.name.tight

theorem offsetLine_tight : Tight z.offsetLine :=
  tight_append (by decide) (by decide) (List.cons_ne_nil _ _) (offsetText_tight z.hours)

theorem tzidLine_plain :
    isMark (trim z.tzidLine) = false ∧ startsWith "TZOFFSETTO:" (trim z.tzidLine) = false := by
  rw [trim_tight z.tzidLine_tight, tzidLine, isMark]
  simp only [List.any_cons, List.any_nil, Bool.or_false, Bool.or_eq_false_iff]
  refine ⟨⟨?_, ?_, ?_, ?_⟩, ?_⟩ <;> exact startsWith_append (by decide +kernel) _

theorem offsetLine_plain :
    isMark (trim z.offsetLine) = false ∧ startsWith "TZID:" (trim z.offsetLine) = false := by
  rw [trim_tight z.offsetLine_tight, offsetLine, isMark]
  simp only [List.any_cons, List.any_nil, Bool.or_false, Bool.or_eq_false_iff]
  refine ⟨⟨?_, ?_, ?_, ?_⟩, ?_⟩ <;> exact startsWith_append (by decide +kernel) _

/-- The sub-component for winter. -/
def standard : SubComponent where
  kind := .standard
  properties := z.front ++ z.offsetLine :: z.back
  plain line member := by
    rcases List.mem_append.mp member with inFront | behind
    · exact ⟨(z.noted line (List.mem_append_left _ inFront)).1,
        (z.noted line (List.mem_append_left _ inFront)).2.1⟩
    · rcases List.mem_cons.mp behind with rfl | inBack
      · exact z.offsetLine_plain
      · exact ⟨(z.noted line (List.mem_append_right _ inBack)).1,
          (z.noted line (List.mem_append_right _ inBack)).2.1⟩

def zone : Zone where
  items := .property z.tzidLine z.tzidLine_plain :: (z.before ++ z.standard :: z.after).map .sub

end ZonePlan

def zoneLines (zones : List ZonePlan) : List Text := zones.flatMap (fun z => z.zone.lines)

/-! ## What is read of a zone -/

theorem parseTzoffset_offsetText {hours : Int} (range : -99 ≤ hours ∧ hours ≤ 99) :
    parseTzoffset (offsetText hours) = hours := by
  have long : (offsetText hours).length = 5 := rfl
  have hh : readNumber (offsetText hours) 1 2 = .ok |hours| :=
    readNumber_piece (by omega) (stoi_twoDigits ⟨abs_nonneg hours, abs_le.mpr range⟩)
  have mm : readNumber (offsetText hours) 3 2 = .ok 0 :=
    readNumber_piece (by omega) (stoi_twoDigits (by decide))
  rw [parseTzoffset, if_neg (by omega)]
  by_cases forward : 0 ≤ hours
  · have sign : (offsetText hours).head? = some (byte '+') := by rw [offsetText, if_pos forward]; rfl
    simp [sign, long, hh, mm, bind, Except.bind, pure, Except.pure, abs_of_nonneg forward]
  · have sign : (offsetText hours).head? = some (byte '-') := by rw [offsetText, if_neg forward]; rfl
    have other : byte '-' ≠ byte '+' := by decide
    simp [sign, other, long, hh, mm, bind, Except.bind, pure, Except.pure, abs_of_neg (not_le.mp forward)]

theorem tzoffset?_noted {lines : List Text}
    (noted : ∀ line ∈ lines, startsWith "TZOFFSETTO:" (trim line) = false) :
    lines.filterMap tzoffset? = [] :=
  List.filterMap_eq_nil_iff.mpr (fun line member => by rw [tzoffset?, noted line member]; rfl)

namespace ZonePlan
variable (z : ZonePlan)

theorem tzid_zone : z.zone.tzid = z.name.bytes := by
  have named : tzid? z.tzidLine = some z.name.bytes := by
    have starts : startsWith "TZID:" (text "TZID:" ++ z.name.bytes) = true := by simp [startsWith]
    rw [tzid?, trim_tight z.tzidLine_tight, tzidLine, if_pos starts]
    exact congrArg some (List.drop_left' rfl)
  have none : ((z.before ++ z.standard :: z.after).map ZoneItem.sub).filterMap ZoneItem.property? = [] := by
    rw [List.filterMap_map]
    exact List.filterMap_eq_nil_iff.mpr (fun _ _ => rfl)
  have own : z.zone.properties = [z.tzidLine] := congrArg (z.tzidLine :: ·) none
  rw [Zone.tzid, own, List.filterMap_cons_some named]
  rfl

theorem offset_zone : z.zone.offset = z.hours := by
  have read : tzoffset? z.offsetLine = some z.hours := by
    have starts : startsWith "TZOFFSETTO:" (text "TZOFFSETTO:" ++ offsetText z.hours) = true := by
      simp [startsWith]
    have behind : (text "TZOFFSETTO:" ++ offsetText z.hours).drop 11 = offsetText z.hours := List.drop_left' rfl
    rw [tzoffset?, trim_tight z.offsetLine_tight, offsetLine, if_pos starts, behind,
      parseTzoffset_offsetText z.range]
  have winter : z.standard.offset? = some z.hours := by
    have front := tzoffset?_noted (fun line member => (z.noted line (List.mem_append_left _ member)).2.2)
    have back := tzoffset?_noted (fun line member => (z.noted line (List.mem_append_right _ member)).2.2)
    simp [SubComponent.offset?, standard, front, back, read]
  have silent {subs : List SubComponent} (summer : ∀ s ∈ subs, s.kind = .daylight) :
      subs.filterMap SubComponent.offset? = [] :=
    List.filterMap_eq_nil_iff.mpr (fun s member => by rw [SubComponent.offset?, summer s member])
  have subs : z.zone.subs = z.before ++ z.standard :: z.after := by
    show ((z.before ++ z.standard :: z.after).map ZoneItem.sub).filterMap ZoneItem.sub? = _
    rw [List.filterMap_map]
    exact List.filterMap_some
  have before := silent (fun s member => z.summer s (List.mem_append_left _ member))
  have after := silent (fun s member => z.summer s (List.mem_append_right _ member))
  rw [Zone.offset, Zone.offsets, subs, List.filterMap_append, before, List.filterMap_cons_some winter, after]
  rfl

end ZonePlan

/-! ## The table of a calendar -/

/-- A zone alone with its name gives the offset of the name. -/
theorem lastOffset_distinct {blocks : List Zone} (distinct : (blocks.map Zone.tzid).Nodup) {z : Zone}
    (member : z ∈ blocks) (named : z.tzid ≠ []) (known : z.offset ≠ kUnknownOffset) :
    lastOffset z.tzid blocks = z.offset := by
  induction blocks with
  | nil => cases member
  | cons first rest ih =>
    obtain ⟨apart, others⟩ := List.nodup_cons.mp (List.map_cons ▸ distinct)
    rcases List.mem_cons.mp member with rfl | later
    · exact if_pos ⟨⟨named, rfl⟩, known⟩
    · have other : first.tzid ≠ z.tzid := fun same => apart (same ▸ List.mem_map_of_mem later)
      rw [lastOffset, if_neg (fun both => other both.1.2), ih others later]

theorem foldl_quiet {lines : List Text} (quiet : ∀ line ∈ lines, startsWith "BEGIN:VTIMEZONE" (trim line) = false)
    {scan : VtimezoneScan} (outside : scan.inTz = false) : lines.foldl VtimezoneScan.line scan = scan := by
  induction lines with
  | nil => rfl
  | cons line rest ih =>
    obtain ⟨first, others⟩ := List.forall_mem_cons.mp quiet
    have same : scan.line line = scan := by
      simp [VtimezoneScan.line, trim_dropCarriageReturn, first, outside]
    rw [List.foldl_cons, same, ih others]

theorem foldl_zoneLines (zones : List ZonePlan) {scan : VtimezoneScan} (outside : scan.inTz = false) :
    ((zoneLines zones).foldl VtimezoneScan.line scan).inTz = false ∧
      ((zoneLines zones).foldl VtimezoneScan.line scan).vtzOffsets =
        (zones.map ZonePlan.zone).foldl record scan.vtzOffsets := by
  induction zones generalizing scan with
  | nil => exact ⟨outside, rfl⟩
  | cons z rest ih =>
    rw [zoneLines, List.flatMap_cons, List.foldl_append, scan_zone]
    exact ih rfl

/-- The zones of a calendar are known by their names, where no other line of it begins one. -/
theorem offsetHours_written {zones : List ZonePlan} (distinct : (zones.map (fun z => z.name.bytes)).Nodup)
    {front behind : List Text}
    (quiet : ∀ line ∈ front ++ behind, startsWith "BEGIN:VTIMEZONE" (trim line) = false) {content : Text}
    (lines : physicalLines content = front ++ (zoneLines zones ++ behind)) {z : ZonePlan} (member : z ∈ zones) :
    offsetHours (collectVtimezones content) z.name.bytes = z.hours := by
  obtain ⟨before, after⟩ := List.forall_mem_append.mp quiet
  obtain ⟨outside, table⟩ := foldl_zoneLines zones (show ({} : VtimezoneScan).inTz = false from rfl)
  have names : ((zones.map ZonePlan.zone).reverse.map Zone.tzid).Nodup := by
    have same : Zone.tzid ∘ ZonePlan.zone = fun z => z.name.bytes := funext ZonePlan.tzid_zone
    rw [List.map_reverse, List.nodup_reverse, List.map_map, same]
    exact distinct
  have listed : z.zone ∈ (zones.map ZonePlan.zone).reverse := List.mem_reverse.mpr (List.mem_map_of_mem member)
  have named : z.zone.tzid ≠ [] := z.tzid_zone ▸ z.name.filled
  have known : z.zone.offset ≠ kUnknownOffset := by
    have range := z.range
    rw [z.offset_zone, kUnknownOffset, intMin]
    omega
  have last := lastOffset_distinct names listed named known
  rw [z.tzid_zone, z.offset_zone] at last
  rw [collectVtimezones_eq, lines, List.foldl_append, List.foldl_append, foldl_quiet before rfl,
    foldl_quiet after outside, table, offsetHours_zones, last]

end DivoomDev.Ics.WrittenZones
