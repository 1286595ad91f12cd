import DivoomDev.Ics.WrittenProperties

/-! Whole events written and read back: every field of an event, its rule, its excluded dates, the
occurrence that it replaces, its alarm and its time zones, with the properties in any order and the
lines folded anywhere. -/

namespace DivoomDev.Ics.WrittenEvents
open DivoomDev.Library DivoomDev.Library.Bytes DivoomDev.Library.Fallible DivoomDev.Library.Commuting TextUtils
  Timezone Models Datetime Recurrence EventBuilder Pipeline Properties Selection Durations ContentLines RuleParts
  Unfolding Folding RoundTrip Instants Alarms PropertyOrder WrittenZones WrittenProperties

/-! ## Alarms -/

/-- So many minutes before the event. -/
structure AlarmPlan where
  minutes : Number
  small : (minutes.value : Int) ≤ intMax
  action : Phrase
  description : Phrase

namespace AlarmPlan

def trigger (a : AlarmPlan) : Duration where
  sign := .minus
  span := .time (.minutes { minutes := a.minutes })

def actionLine (a : AlarmPlan) : ContentLine where
  name := text "ACTION"
  named := ⟨by decide, by decide +kernel⟩
  value := escape a.action.bytes

def descriptionLine (a : AlarmPlan) : ContentLine where
  name := text "DESCRIPTION"
  named := ⟨by decide, by decide +kernel⟩
  value := escape a.description.bytes

def content (a : AlarmPlan) : List Text := [(triggerLine a.trigger).text, a.actionLine.text, a.descriptionLine.text]

def alarm (a : AlarmPlan) : Alarm where
  triggerMinutes := some a.minutes.value
  action := a.action.bytes
  description := a.description.bytes

end AlarmPlan

theorem escape_tight {s : Text} (tight : Tight s) : Tight (escape s) where
  head := by
    cases s with
    | nil => simp [escape]
    | cons first rest =>
      have solid : isBlank first = false := tight.head first rfl
      have notNewline : first ≠ lineFeed := fun same => absurd (same ▸ solid) (by decide)
      intro c head
      rw [escape, List.flatMap_cons, escapeByte, if_neg notNewline] at head
      split_ifs at head
      · cases head
        decide
      · cases head
        exact solid
  last := escape_last tight

theorem reading_escape {line : ContentLine} {p : Phrase} (valued : line.value = escape p.bytes) :
    reading line = p.bytes := by
  rw [reading, valued, trim_tight (escape_tight p.tight), unescape_escape]

theorem parseAlarm_content (a : AlarmPlan) : parseAlarm a.content = .ok [a.alarm] := by
  have read : alarmText a.content =
      { triggerStr := a.trigger.text, action := a.action.bytes, description := a.description.bytes } := by
    have trigger : reading (triggerLine a.trigger) = a.trigger.text := reading_duration rfl
    have action : reading a.actionLine = a.action.bytes := reading_escape rfl
    have description : reading a.descriptionLine = a.description.bytes := reading_escape rfl
    simp only [alarmText, AlarmPlan.content, List.foldl_cons, List.foldl_nil]
    rw [line_plain _ (show (triggerLine a.trigger).params = [] from rfl),
      line_plain _ (show a.actionLine.params = [] from rfl),
      line_plain _ (show a.descriptionLine.params = [] from rfl), trigger, action, description]
    rfl
  have minutes : a.trigger.span.readMinutes = a.minutes.value := by
    simp [AlarmPlan.trigger, Span.readMinutes, TimePart.clock, MinutePart.clock, Clock.wholeMinutes]
  rw [parseAlarm_duration (d := a.trigger) (by rw [read]) (by rw [minutes]; exact a.small), read, minutes]
  rfl

/-! ## Events -/

/-- All that a VEVENT can say of an event, in a form that a writer can write. -/
structure Plan where
  uid : Token
  identified : uid.bytes ≠ []
  summary : Phrase
  description : Phrase
  location : Phrase
  categories : Phrase
  url : Token
  sequence : Number
  small : (sequence.value : Int) ≤ intMax
  status : EventStatus
  start : Timed
  end_ : Timed
  created : Moment
  lastModified : Moment
  stamp : Moment
  organizer : Token
  organizerName : ParamText
  rule : Option RuleLine
  replaces : Option Moment
  excluded : List Moment
  alarm : Option AlarmPlan

namespace Plan

def always (plan : Plan) : List Property :=
  [.token .uid plan.uid, .phrase .summary plan.summary, .phrase .description plan.description,
    .phrase .location plan.location, .phrase .categories plan.categories, .token .url plan.url,
    .sequence plan.sequence plan.small, .status plan.status, .span .start plan.start, .span .end_ plan.end_,
    .time .created plan.created, .time .lastModified plan.lastModified, .time .stamp plan.stamp,
    .organizer plan.organizer plan.organizerName]

def sometimes (plan : Plan) : List Property :=
  plan.rule.elim [] (fun rule => [.rrule rule]) ++ (plan.replaces.elim [] (fun m => [.recurrenceId m]) ++
    match plan.excluded with
    | [] => []
    | first :: more => [.exdates first more])

def properties (plan : Plan) : List Property := plan.always ++ plan.sometimes

/-- The raw event that the plan is to be read as. -/
def raw (zone : SystemZone) (plan : Plan) : RawEvent where
  ev := {
    uid := plan.uid.bytes
    summary := plan.summary.bytes
    description := plan.description.bytes
    location := plan.location.bytes
    categories := plan.categories.bytes
    url := plan.url.bytes
    sequence := plan.sequence.value
    status := plan.status
    start := plan.start.instant
    end_ := plan.end_.instant
    created := plan.created.instant
    lastModified := plan.lastModified.instant
    stamp := plan.stamp.instant
    organizer := plan.organizer.bytes
    organizerName := plan.organizerName.bytes
    exdates := (∅ : Std.ExtTreeSet Text).insertMany (plan.excluded.map Moment.text)
    alarms := plan.alarm.elim [] (fun alarm => [alarm.alarm]) }
  rrule := plan.rule.elim {} (fun rule => readOff zone rule.parts)
  hasRrule := plan.rule.isSome
  exdates := (∅ : Std.ExtTreeSet Text).insertMany (plan.excluded.map Moment.text)
  hasRecurrenceId := plan.replaces.isSome
  recurrenceId := plan.replaces.elim [] Moment.text

/-- The times that are read as instants. -/
def times (plan : Plan) : List Moment :=
  [plan.start.moment, plan.end_.moment, plan.created, plan.lastModified, plan.stamp]

def zones (plan : Plan) : List ZonePlan := plan.start.zone.toList ++ plan.end_.zone.toList

theorem properties_times (plan : Plan) : plan.properties.flatMap Property.times = plan.times := by
  rw [properties, sometimes]
  cases plan.rule <;> cases plan.replaces <;> cases plan.excluded <;> rfl

theorem properties_zones (plan : Plan) : plan.properties.flatMap Property.zones = plan.zones := by
  have always : plan.always.flatMap Property.zones = plan.zones := by
    simp [Plan.always, Property.zones, zones]
  have others : plan.sometimes.flatMap Property.zones = [] := by
    rw [sometimes]
    cases plan.rule <;> cases plan.replaces <;> cases plan.excluded <;> rfl
  rw [properties, List.flatMap_append, always, others, List.append_nil]

theorem properties_once (plan : Plan) : (plan.properties.map Property.name).Nodup := by
  have names : (plan.properties.map Property.name).Sublist
      ([text "UID", text "SUMMARY", text "DESCRIPTION", text "LOCATION", text "CATEGORIES", text "URL",
        text "SEQUENCE", text "STATUS", text "DTSTART", text "DTEND", text "CREATED", text "LAST-MODIFIED",
        text "DTSTAMP", text "ORGANIZER"] ++ ([text "RRULE"] ++ ([text "RECURRENCE-ID"] ++ [text "EXDATE"]))) := by
    rw [properties, List.map_append]
    apply List.Sublist.append (List.Sublist.refl _)
    rw [sometimes, List.map_append, List.map_append]
    refine List.Sublist.append ?_ (List.Sublist.append ?_ ?_)
    · cases plan.rule with
      | none => exact List.nil_sublist _
      | some rule => exact List.Sublist.refl _
    · cases plan.replaces with
      | none => exact List.nil_sublist _
      | some m => exact List.Sublist.refl _
    · cases plan.excluded with
      | nil => exact List.nil_sublist _
      | cons first more => exact List.Sublist.refl _
  exact names.nodup (by decide +kernel)

def update (zone : SystemZone) (re : RawEvent) (p : Property) : RawEvent := Update.apply re (p.update zone)

theorem foldl_properties (zone : SystemZone) (plan : Plan) :
    plan.properties.foldl (update zone) {} =
      { plan.raw zone with ev.alarms := [] } := by
  rw [properties, List.foldl_append, sometimes, List.foldl_append, List.foldl_append, raw]
  cases plan.rule <;> cases plan.replaces <;> cases plan.excluded <;>
    simp only [Option.elim, List.map_nil, Std.ExtTreeSet.insertMany_nil] <;> rfl

end Plan

/-! ## Lines of a component -/

/-- A line that the scan takes neither for a BEGIN nor for an END. -/
structure Inner (line : Text) : Prop where
  tight : Tight line
  clean : Clean line
  filled : line ≠ []
  name : nameOf line ≠ text "BEGIN" ∧ nameOf line ≠ text "END"

theorem inner_property (p : Property) : Inner p.line.text where
  tight := line_tight p
  clean := line_text_clean p
  filled := List.append_ne_nil_of_right_ne_nil _ (List.cons_ne_nil _ _)
  name := by
    rw [nameOf_line]
    exact (propertyNames_known _ p.name_mem).2.2.2

theorem inner_plain {line : ContentLine} (plain : line.params = []) (clean : Clean line.value)
    (name : toUpper line.name ≠ text "BEGIN" ∧ toUpper line.name ≠ text "END") : Inner line.text := by
  have head : line.head = line.name := by rw [ContentLine.head, plain, List.flatMap_nil, List.append_nil]
  have solid : ∀ c ∈ line.name, isBlank c = false := fun c inside => isBlank_nameByte (line.named.bytes c inside)
  have behindColon : Clean (byte ':' :: line.value) := by
    by_cases filled : line.value = []
    · rw [filled]
      exact clean_of_solid (by decide +kernel)
    · show Clean ([byte ':'] ++ line.value)
      exact clean_append (by decide) (by decide) filled clean
  have whole : Clean line.text := by
    rw [ContentLine.text, head]
    exact clean_append (clean_of_solid solid).noReturn (clean_of_solid solid).noFeed (List.cons_ne_nil _ _) behindColon
  have tight : Tight line.text := by
    refine ⟨fun c first => ?_, whole.last⟩
    obtain ⟨d, rest, same⟩ := List.exists_cons_of_ne_nil line.named.filled
    have starts : line.text.head? = some d := by
      rw [ContentLine.text, head, same]
      rfl
    rw [starts] at first
    cases first
    exact solid c (same ▸ List.mem_cons_self)
  have unquoted : byte ':' ∉ line.paramText := by simp [ContentLine.paramText, plain]
  refine ⟨tight, whole, List.append_ne_nil_of_right_ne_nil _ (List.cons_ne_nil _ _), ?_⟩
  rw [nameOf, trim_tight tight, splitIcsLine_text unquoted]
  exact name

theorem inner_content (a : AlarmPlan) : ∀ line ∈ a.content, Inner line := by
  have trigger : Clean a.trigger.text :=
    clean_of_solid (fun c inside => (spelled_solid (spelled_duration a.trigger) inside).1)
  intro line member
  simp only [AlarmPlan.content, List.mem_cons, List.not_mem_nil, or_false] at member
  have names : ∀ name ∈ [text "TRIGGER", text "ACTION", text "DESCRIPTION"],
      toUpper name ≠ text "BEGIN" ∧ toUpper name ≠ text "END" := by decide
  rcases member with rfl | rfl | rfl
  · exact inner_plain rfl trigger (names (text "TRIGGER") (by decide))
  · exact inner_plain rfl a.action.clean (names (text "ACTION") (by decide))
  · exact inner_plain rfl a.description.clean (names (text "DESCRIPTION") (by decide))

theorem Inner.ne_mark {line : Text} (inner : Inner line) (mark : Text)
    (isMark : nameOf mark = text "BEGIN" ∨ nameOf mark = text "END") : line ≠ mark := by
  intro same
  rw [← same] at isMark
  exact isMark.elim inner.name.1 inner.name.2

theorem line_inner {line : Text} (inner : Inner line) {s : LineScan} (inEvent : s.inEvent = true) :
    s.line line = if s.inAlarm then { s with alarmLines := s.alarmLines ++ [line] }
      else { s with eventLines := s.eventLines ++ [line] } := by
  have notBegin := inner.ne_mark (text "BEGIN:VEVENT") (.inl (by decide))
  have notAlarm := inner.ne_mark (text "BEGIN:VALARM") (.inl (by decide))
  have notEnd := inner.ne_mark (text "END:VALARM") (.inr (by decide))
  rw [LineScan.line, if_neg notBegin, inEvent, Bool.not_true, if_neg Bool.false_ne_true, if_neg notAlarm,
    if_neg notEnd]

/-- The scan behind lines that it collects. -/
def collected (s : LineScan) (lines : List Text) : LineScan :=
  if s.inAlarm then { s with alarmLines := s.alarmLines ++ lines }
  else { s with eventLines := s.eventLines ++ lines }

theorem collected_inEvent (s : LineScan) (lines : List Text) : (collected s lines).inEvent = s.inEvent := by
  rw [collected]
  split_ifs <;> rfl

theorem collected_nil (s : LineScan) : collected s [] = s := by
  rw [collected]
  split_ifs <;> rw [List.append_nil]

theorem collected_append (s : LineScan) (front back : List Text) :
    collected (collected s front) back = collected s (front ++ back) := by
  by_cases alarm : s.inAlarm = true <;> simp [collected, alarm]

theorem scanBlocks_inner {lines : List Text} (inner : ∀ line ∈ lines, Inner line) {s : LineScan}
    (inEvent : s.inEvent = true) (rest : List Text) :
    scanBlocks s (lines ++ rest) = scanBlocks (collected s lines) rest := by
  induction lines generalizing s with
  | nil => rw [collected_nil, List.nil_append]
  | cons line later ih =>
    obtain ⟨first, others⟩ := List.forall_mem_cons.mp inner
    have notEnd := first.ne_mark (text "END:VEVENT") (.inr (by decide))
    have trimmed : trim (dropCarriageReturn line) = line := by rw [trim_dropCarriageReturn, trim_tight first.tight]
    have next : s.line line = collected s [line] := line_inner first inEvent
    have inside : (collected s [line]).inEvent = true := (collected_inEvent s _).trans inEvent
    rw [List.cons_append, scanBlocks, trimmed]
    simp only [if_neg notEnd]
    rw [next, ih others inside, collected_append, List.singleton_append]

/-- A marker line changes the scan and is not collected. -/
theorem scanBlocks_mark (s : LineScan) {mark : Text} (tight : trim (dropCarriageReturn mark) = mark)
    (notEnd : mark ≠ text "END:VEVENT") (rest : List Text) :
    scanBlocks s (mark :: rest) = scanBlocks (s.line mark) rest := by
  rw [scanBlocks, tight]
  exact if_neg notEnd

/-! ## Arrangements -/

/-- A plan with its properties in some order, before and behind its alarm. -/
structure Arrangement where
  plan : Plan
  before : List Property
  after : List Property
  whole : (before ++ after).Perm plan.properties

namespace Arrangement

def written (ps : List Property) : List Text := ps.map (fun p => p.line.text)

def alarmContent (a : Arrangement) : List Text := a.plan.alarm.elim [] AlarmPlan.content

def alarmBlock (a : Arrangement) : List Text :=
  a.plan.alarm.elim [] (fun alarm => text "BEGIN:VALARM" :: (alarm.content ++ [text "END:VALARM"]))

def lines (a : Arrangement) : List Text :=
  text "BEGIN:VEVENT" :: (written a.before ++ (a.alarmBlock ++ (written a.after ++ [text "END:VEVENT"])))

def block (a : Arrangement) : VeventBlock := ⟨written (a.before ++ a.after), a.alarmContent⟩

theorem written_inner (ps : List Property) : ∀ line ∈ written ps, Inner line := by
  intro line member
  obtain ⟨p, _, rfl⟩ := List.mem_map.mp member
  exact inner_property p

theorem scanBlocks_alarmBlock (a : Arrangement) (front rest : List Text) :
    scanBlocks { inEvent := true, eventLines := front } (a.alarmBlock ++ rest) =
      scanBlocks { inEvent := true, eventLines := front, alarmLines := a.alarmContent } rest := by
  rw [alarmBlock, alarmContent]
  cases a.plan.alarm with
  | none => rfl
  | some alarm =>
    have opened : ({ inEvent := true, eventLines := front } : LineScan).line (text "BEGIN:VALARM") =
        { inEvent := true, inAlarm := true, eventLines := front } := rfl
    have closed (content : List Text) :
        ({ inEvent := true, inAlarm := true, eventLines := front, alarmLines := content } : LineScan).line
          (text "END:VALARM") = { inEvent := true, eventLines := front, alarmLines := content } := rfl
    show scanBlocks _ (text "BEGIN:VALARM" :: (alarm.content ++ [text "END:VALARM"]) ++ rest) = _
    rw [List.cons_append, scanBlocks_mark _ (by decide) (by decide), opened, List.append_assoc,
      scanBlocks_inner (inner_content alarm) rfl, List.singleton_append, scanBlocks_mark _ (by decide) (by decide)]
    exact congrArg (scanBlocks · rest) (closed alarm.content)

theorem before_after_filled (a : Arrangement) : written (a.before ++ a.after) ≠ [] := by
  have same : (written (a.before ++ a.after)).length = a.plan.properties.length := by
    rw [written, List.length_map, a.whole.length_eq]
  apply List.ne_nil_of_length_pos
  rw [same, Plan.properties, List.length_append, Plan.always, List.length_cons]
  omega

theorem scanBlocks_lines (a : Arrangement) (rest : List Text) :
    scanBlocks {} (a.lines ++ rest) = a.block :: scanBlocks {} rest := by
  have opened : ({} : LineScan).line (text "BEGIN:VEVENT") = { inEvent := true } := rfl
  have front : collected { inEvent := true } (written a.before) =
      { inEvent := true, eventLines := written a.before } := rfl
  have both (content : List Text) :
      collected { inEvent := true, eventLines := written a.before, alarmLines := content } (written a.after) =
        { inEvent := true, eventLines := written (a.before ++ a.after), alarmLines := content } := by
    rw [written, written, written, List.map_append]
    rfl
  have ends : trim (dropCarriageReturn (text "END:VEVENT")) = text "END:VEVENT" := by decide
  rw [lines, List.cons_append, scanBlocks_mark _ (by decide) (by decide), opened, List.append_assoc,
    List.append_assoc, List.append_assoc, scanBlocks_inner (written_inner a.before) rfl, front, scanBlocks_alarmBlock,
    scanBlocks_inner (written_inner a.after) rfl, both, List.singleton_append, scanBlocks, ends]
  simp only [if_true, if_neg a.before_after_filled, List.singleton_append]
  rfl

/-! ## Building -/

theorem update_name (zone : SystemZone) (p : Property) : (p.update zone).name = some p.name := by
  cases p with
  | phrase field _ => cases field <;> rfl
  | token field _ => cases field <;> rfl
  | span field _ => cases field <;> rfl
  | time field _ => cases field <;> rfl
  | _ => rfl

theorem foldl_before_after (zone : SystemZone) (a : Arrangement) :
    (a.before ++ a.after).foldl (Plan.update zone) {} = { a.plan.raw zone with ev.alarms := [] } := by
  have commutes (re : RawEvent) (p q : Property) (different : p.name ≠ q.name) :
      Plan.update zone (Plan.update zone re p) q = Plan.update zone (Plan.update zone re q) p := by
    apply Update.apply_comm
    rw [update_name, update_name]
    exact .inl (fun same => different (Option.some.inj same))
  rw [foldl_sameSlots commutes (sameSlots_of_perm a.whole a.plan.properties_once), Plan.foldl_properties]

theorem parseAlarm_alarmContent (a : Arrangement) :
    parseAlarm a.alarmContent = .ok (a.plan.alarm.elim [] (fun alarm => [alarm.alarm])) := by
  rw [alarmContent]
  cases a.plan.alarm with
  | none => rfl
  | some alarm => exact parseAlarm_content alarm

variable {zone : SystemZone} (tz : TimezoneResolver)

theorem foldlM_written {ps : List Property} (converts : ∀ m ∈ ps.flatMap Property.times, m.Converts zone)
    (known : ∀ z ∈ ps.flatMap Property.zones, offsetHours tz z.name.bytes = z.hours) (re : RawEvent) :
    (written ps).foldlM (applyLine zone tz) re = .ok (ps.foldl (Plan.update zone) re) := by
  induction ps generalizing re with
  | nil => rfl
  | cons p rest ih =>
    obtain ⟨here, later⟩ := List.forall_mem_append.mp (List.flatMap_cons ▸ converts)
    obtain ⟨hereKnown, laterKnown⟩ := List.forall_mem_append.mp (List.flatMap_cons ▸ known)
    rw [written, List.map_cons, List.foldlM_cons, applyLine_readLine, readLine_line tz p here hereKnown]
    exact ih later laterKnown _

theorem build_block {a : Arrangement} (converts : ∀ m ∈ a.plan.times, m.Converts zone)
    (known : ∀ z ∈ a.plan.zones, offsetHours tz z.name.bytes = z.hours) :
    build zone tz a.block.eventLines a.block.alarmLines = .ok (a.plan.raw zone) := by
  have arranged : ∀ m ∈ (a.before ++ a.after).flatMap Property.times, m.Converts zone := by
    intro m member
    rw [(a.whole.flatMap_right _).mem_iff, Plan.properties_times] at member
    exact converts m member
  have arrangedZones : ∀ z ∈ (a.before ++ a.after).flatMap Property.zones,
      offsetHours tz z.name.bytes = z.hours := by
    intro z member
    rw [(a.whole.flatMap_right _).mem_iff, Plan.properties_zones] at member
    exact known z member
  show (do
    let re ← (written (a.before ++ a.after)).foldlM (applyLine zone tz) {}
    let alarms ← parseAlarm a.alarmContent
    pure { re with ev.alarms := re.ev.alarms ++ alarms }) = _
  rw [foldlM_written tz arranged arrangedZones, parseAlarm_alarmContent, foldl_before_after]
  rfl

end Arrangement

/-! ## Calendars -/

/-- A line in front of the VEVENTs or behind them. -/
structure Outer (line : Text) : Prop where
  filled : line ≠ []
  noFeed : lineFeed ∉ line
  noReturn : carriageReturn ∉ line
  other : trim line ≠ text "BEGIN:VEVENT"

instance : DecidablePred Outer := fun line =>
  decidable_of_iff (line ≠ [] ∧ lineFeed ∉ line ∧ carriageReturn ∉ line ∧ trim line ≠ text "BEGIN:VEVENT")
    ⟨fun given => ⟨given.1, given.2.1, given.2.2.1, given.2.2.2⟩,
      fun outer => ⟨outer.filled, outer.noFeed, outer.noReturn, outer.other⟩⟩

theorem scanBlocks_outer {lines : List Text} (outer : ∀ line ∈ lines, Outer line) (rest : List Text) :
    scanBlocks {} (lines ++ rest) = scanBlocks {} rest := by
  induction lines with
  | nil => rfl
  | cons line later ih =>
    obtain ⟨first, others⟩ := List.forall_mem_cons.mp outer
    rw [List.cons_append, scanBlocks, trim_dropCarriageReturn]
    have passed : ({} : LineScan).line (trim line) = {} := if_neg first.other
    simp only [if_true, List.nil_append, passed, ih others, ite_self]

theorem scanBlocks_arrangements (arrangements : List Arrangement) (rest : List Text) :
    scanBlocks {} (arrangements.flatMap Arrangement.lines ++ rest) =
      arrangements.map Arrangement.block ++ scanBlocks {} rest := by
  induction arrangements with
  | nil => rfl
  | cons a others ih =>
    rw [List.flatMap_cons, List.append_assoc, Arrangement.scanBlocks_lines, ih, List.map_cons, List.cons_append]

/-- A calendar with its time zones, its events and the lines around them. -/
structure Calendar where
  zones : List ZonePlan
  distinct : (zones.map (fun z => z.name.bytes)).Nodup
  arrangements : List Arrangement
  known : ∀ a ∈ arrangements, ∀ z ∈ a.plan.zones, z ∈ zones
  head : List Text
  foot : List Text
  outer : ∀ line ∈ (head ++ zoneLines zones) ++ foot, Outer line

def Calendar.events (c : Calendar) : List Text := c.arrangements.flatMap Arrangement.lines ++ c.foot

def uncut (lines : List Text) : List FoldedLine := lines.map (fun line => ⟨line, []⟩)

/-- A calendar cut into the lines that are written. The lines of its time zones stay whole, and no
other line begins one. -/
structure Layout (c : Calendar) where
  front : List FoldedLine
  behind : List FoldedLine
  headed : front.map FoldedLine.line = c.head
  whole : behind.map FoldedLine.line = c.events
  cut : ∀ f ∈ front ++ (uncut (zoneLines c.zones) ++ behind), f.Sound
  quiet : c.zones ≠ [] → ∀ line ∈ front.flatMap FoldedLine.physical ++ behind.flatMap FoldedLine.physical,
    startsWith "BEGIN:VTIMEZONE" (trim line) = false

namespace Layout
variable {c : Calendar} (layout : Layout c)

def pieces : List FoldedLine := layout.front ++ (uncut (zoneLines c.zones) ++ layout.behind)

def physical : List Text := layout.pieces.flatMap FoldedLine.physical

theorem uncut_line (lines : List Text) :
    (uncut lines).map FoldedLine.line = lines ∧ (uncut lines).flatMap FoldedLine.physical = lines := by
  have same : FoldedLine.line ∘ (fun line => ⟨line, []⟩) = id :=
    funext (fun line => by simp [FoldedLine.line])
  rw [uncut, List.map_map, same, List.flatMap_map]
  exact ⟨List.map_id _, List.flatMap_singleton' _⟩

theorem pieces_line : layout.pieces.map FoldedLine.line = (c.head ++ zoneLines c.zones) ++ c.events := by
  rw [pieces, List.map_append, List.map_append, layout.headed, layout.whole, (uncut_line _).1, List.append_assoc]

theorem physical_eq : layout.physical = layout.front.flatMap FoldedLine.physical ++
    (zoneLines c.zones ++ layout.behind.flatMap FoldedLine.physical) := by
  rw [physical, pieces, List.flatMap_append, List.flatMap_append, (uncut_line _).2]

end Layout

theorem scanBlocks_calendar (c : Calendar) :
    scanBlocks {} ((c.head ++ zoneLines c.zones) ++ c.events) = c.arrangements.map Arrangement.block := by
  obtain ⟨inHead, inFoot⟩ := List.forall_mem_append.mp c.outer
  have nothing : scanBlocks {} c.foot = [] := by
    rw [← List.append_nil c.foot, scanBlocks_outer inFoot]
    rfl
  rw [Calendar.events, scanBlocks_outer inHead, scanBlocks_arrangements, nothing, List.append_nil]

theorem mark_oneLine : ∀ mark ∈ [text "BEGIN:VEVENT", text "END:VEVENT", text "BEGIN:VALARM", text "END:VALARM"],
    mark ≠ [] ∧ lineFeed ∉ mark ∧ carriageReturn ∉ mark := by
  decide

theorem Inner.oneLine {line : Text} (inner : Inner line) :
    line ≠ [] ∧ lineFeed ∉ line ∧ carriageReturn ∉ line :=
  ⟨inner.filled, inner.clean.noFeed, inner.clean.noReturn⟩

theorem lines_oneLine (a : Arrangement) :
    ∀ line ∈ a.lines, line ≠ [] ∧ lineFeed ∉ line ∧ carriageReturn ∉ line := by
  have alarm : ∀ line ∈ a.alarmBlock, line ≠ [] ∧ lineFeed ∉ line ∧ carriageReturn ∉ line := by
    intro line member
    unfold Arrangement.alarmBlock at member
    cases given : a.plan.alarm with
    | none => simp [given] at member
    | some alarm =>
      simp only [given, Option.elim, List.mem_cons, List.mem_append, List.not_mem_nil, or_false] at member
      rcases member with rfl | content | rfl
      · exact mark_oneLine _ (by decide)
      · exact (inner_content alarm line content).oneLine
      · exact mark_oneLine _ (by decide)
  intro line member
  simp only [Arrangement.lines, List.mem_cons, List.mem_append, List.not_mem_nil, or_false] at member
  rcases member with rfl | before | inAlarm | after | rfl
  · exact mark_oneLine _ (by decide)
  · exact (Arrangement.written_inner a.before line before).oneLine
  · exact alarm line inAlarm
  · exact (Arrangement.written_inner a.after line after).oneLine
  · exact mark_oneLine _ (by decide)

theorem calendarVevents_written {zone : SystemZone} {c : Calendar} (layout : Layout c)
    (converts : ∀ a ∈ c.arrangements, ∀ m ∈ a.plan.times, m.Converts zone) {lines : List (Text × Bool)}
    (broken : lines.map Prod.fst = layout.physical) :
    calendarVevents zone (writeLines lines) =
      .ok (c.arrangements.map (fun a => ⟨a.block, a.plan.raw zone⟩)) := by
  have oneLine : ∀ line ∈ layout.pieces.map FoldedLine.line,
      line ≠ [] ∧ lineFeed ∉ line ∧ carriageReturn ∉ line := by
    obtain ⟨inHead, inFoot⟩ := List.forall_mem_append.mp c.outer
    intro line member
    rw [layout.pieces_line] at member
    rcases List.mem_append.mp member with first | later
    · exact ⟨(inHead line first).filled, (inHead line first).noFeed, (inHead line first).noReturn⟩
    · rcases List.mem_append.mp later with inEvents | last
      · obtain ⟨a, _, inside⟩ := List.mem_flatMap.mp inEvents
        exact lines_oneLine a line inside
      · exact ⟨(inFoot line last).filled, (inFoot line last).noFeed, (inFoot line last).noReturn⟩
  have blocks : veventBlocks (writeLines lines) = c.arrangements.map Arrangement.block := by
    have unfolded : unfoldedLines (physicalLines (writeLines lines)) = layout.pieces.map FoldedLine.line :=
      unfoldedLines_written layout.cut oneLine broken
    rw [veventBlocks_eq, unfolded, layout.pieces_line, scanBlocks_calendar]
  have offsets : ∀ a ∈ c.arrangements, ∀ z ∈ a.plan.zones,
      offsetHours (collectVtimezones (writeLines lines)) z.name.bytes = z.hours := by
    intro a member z used
    have listed : z ∈ c.zones := c.known a member z used
    have physical : physicalLines (writeLines lines) = layout.front.flatMap FoldedLine.physical ++
        (zoneLines c.zones ++ layout.behind.flatMap FoldedLine.physical) :=
      (physicalLines_written layout.cut oneLine broken).trans layout.physical_eq
    exact offsetHours_written c.distinct (layout.quiet (List.ne_nil_of_mem listed)) physical listed
  have built : (c.arrangements.map Arrangement.block).mapM (buildVevent zone (collectVtimezones (writeLines lines))) =
      .ok (c.arrangements.map (fun a => ⟨a.block, a.plan.raw zone⟩)) := by
    apply mapM_map_eq
    intro a member
    rw [buildVevent, Arrangement.build_block _ (converts a member) (offsets a member)]
    rfl
  rw [calendarVevents, blocks, built]
  show Except.ok (List.filter _ _) = _
  rw [List.filter_eq_self.mpr]
  intro v member
  obtain ⟨a, _, rfl⟩ := List.mem_map.mp member
  exact decide_eq_true a.plan.identified

/-- A calendar written from plans, with the properties of each event in any order, its lines
folded anywhere and either line break, is read as the plans. -/
theorem parseCalendarAt_written {zone : SystemZone} {c : Calendar} (layout : Layout c)
    (converts : ∀ a ∈ c.arrangements, ∀ m ∈ a.plan.times, m.Converts zone) {lines : List (Text × Bool)}
    (broken : lines.map Prod.fst = layout.physical) (now : TimePoint) (settings : CalendarSettings) :
    parseCalendarAt zone (writeLines lines) now settings =
      .ok (selectEvents zone now settings (c.arrangements.map (fun a => a.plan.raw zone))) := by
  rw [parseCalendarAt_eq (calendarVevents_written layout converts broken), List.map_map]
  rfl

/-- A zone with a summer time, which is not read. -/
def moscow : ZonePlan where
  name := ⟨text "Russian Standard Time", by decide, ⟨by decide +kernel, by decide +kernel⟩, by decide +kernel,
    by decide +kernel⟩
  hours := 3
  range := by decide
  front := [text "DTSTART:16010101T000000", text "TZOFFSETFROM:+0400"]
  noted := by decide +kernel
  before := [⟨.daylight, [text "TZOFFSETFROM:+0300", text "TZOFFSETTO:+0400"], by decide +kernel⟩]
  summer := by decide

/-- Every Friday at 11:00 in Moscow with an alarm, but not on 2026-09-25. -/
def fridayPlan : Plan where
  uid := ⟨text "stand:up", ⟨by decide +kernel, by decide +kernel⟩, by decide +kernel, by decide +kernel⟩
  identified := by decide
  summary := ⟨text "Stand-up, daily; room 1", ⟨by decide +kernel, by decide +kernel⟩, by decide +kernel⟩
  description := ⟨text "one\nEND:VEVENT", ⟨by decide +kernel, by decide +kernel⟩, by decide +kernel⟩
  location := ⟨[], ⟨by decide +kernel, by decide +kernel⟩, by decide +kernel⟩
  categories := ⟨text "work\\", ⟨by decide +kernel, by decide +kernel⟩, by decide +kernel⟩
  url := ⟨text "http://a/b", ⟨by decide +kernel, by decide +kernel⟩, by decide +kernel, by decide +kernel⟩
  sequence := ⟨text "5", by decide +kernel, by decide +kernel⟩
  small := by decide +kernel
  status := .tentative
  start := ⟨⟨Gregorian.timeOf 1789124400, (Gregorian.timeOf_regular _).valid, by decide +kernel⟩, some moscow⟩
  end_ := ⟨⟨Gregorian.timeOf 1789114500, (Gregorian.timeOf_regular _).valid, by decide +kernel⟩, none⟩
  created := ⟨Gregorian.timeOf 0, (Gregorian.timeOf_regular _).valid, by decide +kernel⟩
  lastModified := ⟨Gregorian.timeOf 0, (Gregorian.timeOf_regular _).valid, by decide +kernel⟩
  stamp := ⟨Gregorian.timeOf 0, (Gregorian.timeOf_regular _).valid, by decide +kernel⟩
  organizer := ⟨text "a@b", ⟨by decide +kernel, by decide +kernel⟩, by decide +kernel, by decide +kernel⟩
  organizerName := ⟨text "A B", by decide +kernel⟩
  rule := some ⟨[.freq .weekly], ⟨by decide +kernel, by decide +kernel⟩, by decide +kernel, by decide +kernel⟩
  replaces := none
  excluded := [⟨Gregorian.timeOf 1790323200, (Gregorian.timeOf_regular _).valid, by decide +kernel⟩]
  alarm := some
    { minutes := ⟨text "15", by decide +kernel, by decide +kernel⟩
      small := by decide +kernel
      action := ⟨text "DISPLAY", ⟨by decide +kernel, by decide +kernel⟩, by decide +kernel⟩
      description := ⟨text "Soon", ⟨by decide +kernel, by decide +kernel⟩, by decide +kernel⟩ }

/-- Its last properties first, and the alarm behind them. -/
def fridays : Arrangement where
  plan := fridayPlan
  before := fridayPlan.properties.drop 9
  after := fridayPlan.properties.take 9
  whole := by
    have turned : (fridayPlan.properties.drop 9 ++ fridayPlan.properties.take 9).Perm
        (fridayPlan.properties.take 9 ++ fridayPlan.properties.drop 9) := List.perm_append_comm
    rwa [List.take_append_drop] at turned

def fridayCalendar : Calendar where
  zones := [moscow]
  distinct := List.nodup_singleton _
  arrangements := [fridays]
  known a member z used := by
    rw [List.mem_singleton.mp member] at used
    exact used
  head := [text "BEGIN:VCALENDAR"]
  foot := [text "END:VCALENDAR"]
  outer := by decide +kernel

/-- The line is cut behind its fourth byte. -/
def cutLine (line : Text) : FoldedLine := ⟨line.take 4, [(byte ' ', line.drop 4)]⟩

theorem cutLine_line (lines : List Text) : (lines.map cutLine).map FoldedLine.line = lines := by
  have same : FoldedLine.line ∘ cutLine = id := funext (fun line => by simp [cutLine, FoldedLine.line])
  rw [List.map_map, same, List.map_id]

def fridayLayout : Layout fridayCalendar where
  front := [text "BEGIN:VCALENDAR"].map cutLine
  behind := fridayCalendar.events.map cutLine
  headed := cutLine_line _
  whole := cutLine_line _
  cut := by decide +kernel
  quiet _ := by decide +kernel

def fridayLines : List (Text × Bool) := fridayLayout.physical.map (fun line => (line, true))

theorem fridayLines_fst : fridayLines.map Prod.fst = fridayLayout.physical := by
  rw [fridayLines, List.map_map]
  exact List.map_id _

theorem fixed_converts (m : Moment) : m.Converts (.fixed 0) := fun isdst => utcSeconds_wallTm m.valid isdst

theorem parseCalendarAt_written_fridays :
    parseCalendarAt (.fixed 0) (writeLines fridayLines) (fromTimeT 1790000000) {} =
      .ok (selectEvents (.fixed 0) (fromTimeT 1790000000) {} [fridayPlan.raw (.fixed 0)]) :=
  parseCalendarAt_written fridayLayout (fun _ _ m _ => fixed_converts m) fridayLines_fst _ _

end DivoomDev.Ics.WrittenEvents
