import DivoomDev.Ics.Alarms

/-! VEVENTs with any number of VALARM blocks among their lines, and the alarms that reach the
raw event. -/

namespace DivoomDev.Ics.AlarmBlocks
open DivoomDev.Library.Bytes DivoomDev.Library.Fallible TextUtils Timezone Models Datetime EventBuilder
  Pipeline RoundTrip ContentLines Durations Alarms

/-! ## VEVENTs with alarms -/

/-- The lines with a name, in whatever case. -/
def namedLines (name : String) (lines : List ContentLine) : List ContentLine :=
  lines.filter (fun line => toUpper line.name = text name)

theorem namedLines_cons (name : String) (line : ContentLine) (rest : List ContentLine) :
    namedLines name (line :: rest) =
      if toUpper line.name = text name then line :: namedLines name rest else namedLines name rest := by
  simp [namedLines, List.filter_cons]

/-- The lines of a VALARM: one TRIGGER that is a duration, and at most one ACTION and DESCRIPTION. -/
structure Valarm where
  lines : List ContentLine
  trigger : ContentLine
  duration : Duration
  onlyTrigger : namedLines "TRIGGER" lines = [trigger]
  valued : trigger.value = duration.text
  once : ∀ name ∈ ["ACTION", "DESCRIPTION"], (namedLines name lines).length ≤ 1
  noMarkers : ∀ line ∈ lines, toUpper line.name ≠ text "BEGIN" ∧ toUpper line.name ≠ text "END"

namespace Valarm

def action (v : Valarm) : Text := ((namedLines "ACTION" v.lines).getLast?.map reading).getD (text "DISPLAY")

def description (v : Valarm) : Text := ((namedLines "DESCRIPTION" v.lines).getLast?.map reading).getD []

/-- The lines as the scan for VEVENTs keeps them. -/
def kept (v : Valarm) : List Text := v.lines.map (fun line => trim line.text)

end Valarm

def veventMarkers : List Text :=
  [text "BEGIN:VEVENT", text "END:VEVENT", text "BEGIN:VALARM", text "END:VALARM"]

/-- What stands between BEGIN:VEVENT and END:VEVENT: lines of the event and alarms. -/
inductive Item where
  | own (line : Text) (plain : trim line ∉ veventMarkers)
  | alarm (valarm : Valarm)

namespace Item

def lines : Item → List Text
  | own line _ => [line]
  | alarm v => text "BEGIN:VALARM" :: v.lines.map ContentLine.text ++ [text "END:VALARM"]

def own? : Item → Option Text
  | own line _ => some line
  | alarm _ => none

def valarm? : Item → Option Valarm
  | own _ _ => none
  | alarm v => some v

def isOwn : Item → Bool
  | own _ _ => true
  | alarm _ => false

end Item

def veventLines (items : List Item) : List Text :=
  text "BEGIN:VEVENT" :: items.flatMap Item.lines ++ [text "END:VEVENT"]

def ownLines (items : List Item) : List Text := items.filterMap Item.own?

def valarms (items : List Item) : List Valarm := items.filterMap Item.valarm?

/-- The VEVENT with the VALARM blocks removed. -/
def withoutAlarms (items : List Item) : List Item := items.filter Item.isOwn

/-! ## The scan -/

theorem takeWhile_name {line : ContentLine} :
    (trim line.text).takeWhile isNameByte = line.name := by
  obtain ⟨kept, trimmed, _⟩ := trim_text line
  rw [trimmed, ContentLine.head, List.append_assoc, List.takeWhile_append_of_pos line.named.bytes]
  cases line.params with
  | nil =>
    rw [List.flatMap_nil, List.nil_append, List.takeWhile_cons_of_neg (by decide), List.append_nil]
  | cons p rest =>
    rw [List.flatMap_cons, List.cons_append, List.cons_append, List.takeWhile_cons_of_neg (by decide),
      List.append_nil]

theorem trim_ne_marker {line : ContentLine}
    (noMarker : toUpper line.name ≠ text "BEGIN" ∧ toUpper line.name ≠ text "END") :
    trim line.text ∉ veventMarkers := by
  intro marker
  have name : (trim line.text).takeWhile isNameByte ∈ veventMarkers.map (List.takeWhile isNameByte) :=
    List.mem_map_of_mem marker
  rw [takeWhile_name, show veventMarkers.map (List.takeWhile isNameByte) =
    [text "BEGIN", text "END", text "BEGIN", text "END"] by decide +kernel] at name
  have upper : ∀ name ∈ [text "BEGIN", text "END", text "BEGIN", text "END"],
      toUpper name = text "BEGIN" ∨ toUpper name = text "END" := by decide +kernel
  rcases upper _ name with same | same
  · exact noMarker.1 same
  · exact noMarker.2 same

theorem scan_alarmLine {s : LineScan} {t : Text} (open' : s.inEvent = true) (within : s.inAlarm = true)
    (plain : t ∉ veventMarkers) : s.line t = { s with alarmLines := s.alarmLines ++ [t] } := by
  simp only [veventMarkers, List.mem_cons, not_or] at plain
  simp [LineScan.line, plain, open', within]

theorem scan_ownLine {s : LineScan} {t : Text} (open' : s.inEvent = true) (outside : s.inAlarm = false)
    (plain : t ∉ veventMarkers) : s.line t = { s with eventLines := s.eventLines ++ [t] } := by
  simp only [veventMarkers, List.mem_cons, not_or] at plain
  simp [LineScan.line, plain, open', outside]

theorem scan_alarmLines {lines : List Text} (plain : ∀ t ∈ lines, t ∉ veventMarkers) {s : LineScan}
    (open' : s.inEvent = true) (within : s.inAlarm = true) :
    lines.foldl LineScan.line s = { s with alarmLines := s.alarmLines ++ lines } := by
  induction lines generalizing s with
  | nil => simp
  | cons t rest ih =>
    obtain ⟨first, others⟩ := List.forall_mem_cons.mp plain
    have later := ih others (s := { s with alarmLines := s.alarmLines ++ [t] }) open' within
    rw [List.foldl_cons, scan_alarmLine open' within first, later]
    simp

theorem kept_plain (v : Valarm) : ∀ t ∈ v.kept, t ∉ veventMarkers := by
  intro t member
  obtain ⟨line, inside, rfl⟩ := List.mem_map.mp member
  exact trim_ne_marker (v.noMarkers line inside)

/-- A VALARM takes the place of the one before it. -/
theorem scan_alarm (v : Valarm) {s : LineScan} (open' : s.inEvent = true) (outside : s.inAlarm = false) :
    ((Item.alarm v).lines.map trim).foldl LineScan.line s = { s with alarmLines := v.kept } := by
  have markers : trim (text "BEGIN:VALARM") = text "BEGIN:VALARM" ∧
      trim (text "END:VALARM") = text "END:VALARM" := by decide +kernel
  have begins : s.line (text "BEGIN:VALARM") = { s with inAlarm := true, alarmLines := [] } := by
    have different : text "BEGIN:VALARM" ≠ text "BEGIN:VEVENT" := by decide
    simp [LineScan.line, different, open']
  have body : (v.lines.map (trim ∘ ContentLine.text)).foldl LineScan.line
      { s with inAlarm := true, alarmLines := [] } = { s with inAlarm := true, alarmLines := v.kept } :=
    scan_alarmLines (kept_plain v) (s := { s with inAlarm := true, alarmLines := [] }) open' rfl
  have ends : LineScan.line { s with inAlarm := true, alarmLines := v.kept } (text "END:VALARM") =
      { s with alarmLines := v.kept } := by
    have notEvent : text "END:VALARM" ≠ text "BEGIN:VEVENT" := by decide
    have notBegin : text "END:VALARM" ≠ text "BEGIN:VALARM" := by decide
    simp [LineScan.line, notEvent, notBegin, open', outside]
  rw [Item.lines, List.cons_append, List.map_cons, List.foldl_cons, markers.1, begins, List.map_append,
    List.foldl_append, List.map_map, List.map_singleton, markers.2, body, List.foldl_cons, List.foldl_nil, ends]

/-- Of all alarms in the block, the lines of the last one are kept. -/
theorem scan_items (items : List Item) {s : LineScan} (open' : s.inEvent = true) (outside : s.inAlarm = false) :
    ((items.flatMap Item.lines).map trim).foldl LineScan.line s =
      { s with
        eventLines := s.eventLines ++ (ownLines items).map trim
        alarmLines := ((valarms items).getLast?.map Valarm.kept).getD s.alarmLines } := by
  induction items generalizing s with
  | nil => simp [ownLines, valarms]
  | cons item rest ih =>
    rw [List.flatMap_cons, List.map_append, List.foldl_append]
    cases item with
    | own line plain =>
      have step : ([line].map trim).foldl LineScan.line s =
          { s with eventLines := s.eventLines ++ [trim line] } := scan_ownLine open' outside plain
      have later := ih (s := { s with eventLines := s.eventLines ++ [trim line] }) open' outside
      rw [Item.lines, step, later]
      simp [ownLines, valarms, Item.own?, Item.valarm?]
    | alarm v =>
      have later := ih (s := { s with alarmLines := v.kept }) open' outside
      have last : ((valarms (.alarm v :: rest)).getLast?.map Valarm.kept).getD s.alarmLines =
          ((valarms rest).getLast?.map Valarm.kept).getD v.kept := by
        rw [show valarms (.alarm v :: rest) = v :: valarms rest from rfl, List.getLast?_cons]
        cases (valarms rest).getLast? <;> rfl
      rw [scan_alarm v open' outside, later, last]
      rfl

theorem item_open (item : Item) : ∀ line ∈ item.lines, trim line ≠ text "END:VEVENT" := by
  cases item with
  | own line plain =>
    intro other inside
    obtain rfl := List.mem_singleton.mp inside
    intro same
    exact plain (same ▸ by decide)
  | alarm v =>
    intro other inside
    rw [Item.lines, List.cons_append, List.mem_cons, List.mem_append, List.mem_singleton] at inside
    rcases inside with rfl | body | rfl
    · decide +kernel
    · obtain ⟨line, member, rfl⟩ := List.mem_map.mp body
      intro same
      exact kept_plain v _ (List.mem_map_of_mem member) (same ▸ by decide)
    · decide +kernel

section Collected
variable {zone : SystemZone} {tz : TimezoneResolver}

theorem collect_lines {lines : List Text} (open' : ∀ line ∈ lines, trim line ≠ text "END:VEVENT") (c : Collect) :
    lines.foldlM (Collect.line zone tz) c =
      .ok { c with toLineScan := (lines.map trim).foldl LineScan.line c.toLineScan } := by
  induction lines generalizing c with
  | nil => rfl
  | cons line rest ih =>
    obtain ⟨first, others⟩ := List.forall_mem_cons.mp open'
    have step : Collect.line zone tz c line = .ok { c with toLineScan := c.toLineScan.line (trim line) } := by
      simp only [Collect.line, trim_dropCarriageReturn, if_neg first]
      rfl
    rw [List.foldlM_cons, step]
    exact ih others _

theorem collect_vevent (items : List Item) (c : Collect) :
    (veventLines items).foldlM (Collect.line zone tz) c = Collect.flush zone tz {
      raws := c.raws
      inEvent := true
      eventLines := (ownLines items).map trim
      alarmLines := ((valarms items).getLast?.map Valarm.kept).getD [] } := by
  have markers : trim (text "BEGIN:VEVENT") = text "BEGIN:VEVENT" ∧ trim (text "END:VEVENT") = text "END:VEVENT" := by
    decide +kernel
  have begins : Collect.line zone tz c (text "BEGIN:VEVENT") = .ok { c with toLineScan := { inEvent := true } } := by
    have different : text "BEGIN:VEVENT" ≠ text "END:VEVENT" := by decide
    simp only [Collect.line, trim_dropCarriageReturn, markers.1, if_neg different, LineScan.line]
    rfl
  have open' : ∀ line ∈ items.flatMap Item.lines, trim line ≠ text "END:VEVENT" := by
    intro line inside
    obtain ⟨item, _, within⟩ := List.mem_flatMap.mp inside
    exact item_open item line within
  have body : (items.flatMap Item.lines).foldlM (Collect.line zone tz)
      { c with toLineScan := { inEvent := true } } = _ := collect_lines open' _
  rw [scan_items items rfl rfl] at body
  rw [veventLines, List.foldlM_append, List.foldlM_cons, begins]
  show (List.foldlM _ _ _ >>= fun c => List.foldlM _ c _) = _
  rw [body]
  show (Collect.line zone tz _ (text "END:VEVENT") >>= pure) = _
  simp only [bind_pure, Collect.line, trim_dropCarriageReturn, markers.2, if_true, List.nil_append]

/-- The loop of `collect_raw_events`, in whatever state it comes to the lines, appends one raw
event. -/
def Collected (zone : SystemZone) (tz : TimezoneResolver) (c : Collect) (lines : List Text) (re : RawEvent) : Prop :=
  lines.foldlM (Collect.line zone tz) c = .ok { raws := c.raws ++ [re] }

theorem collected_iff {items : List Item} {c : Collect} {re : RawEvent} :
    Collected zone tz c (veventLines items) re ↔ ownLines items ≠ [] ∧ re.ev.uid ≠ [] ∧
      build zone tz ((ownLines items).map trim) (((valarms items).getLast?.map Valarm.kept).getD []) = .ok re := by
  rw [Collected, collect_vevent, Collect.flush]
  by_cases empty : ownLines items = []
  · simp [empty, pure, Except.pure]
  · have filled : (ownLines items).map trim ≠ [] := by simpa using empty
    simp only [if_neg filled]
    cases built : build zone tz ((ownLines items).map trim)
        (((valarms items).getLast?.map Valarm.kept).getD []) with
    | error e => simp [bind, Except.bind]
    | ok other =>
      by_cases anonymous : other.ev.uid = []
      · simp only [bind, Except.bind, if_pos anonymous, pure, Except.pure, Except.ok.injEq]
        apply Iff.intro
        · intro same
          have raws : c.raws = c.raws ++ [re] := congrArg Collect.raws same
          exact absurd raws.symm (by simp)
        · intro given
          exact absurd anonymous (given.2.2 ▸ given.2.1)
      · simp only [bind, Except.bind, if_neg anonymous, pure, Except.pure, Except.ok.injEq]
        apply Iff.intro
        · intro same
          have raws : c.raws ++ [other] = c.raws ++ [re] := congrArg Collect.raws same
          have equal : other = re := by simpa using raws
          exact ⟨empty, equal ▸ anonymous, equal⟩
        · intro given
          rw [given.2.2]

theorem applyProperty_alarms (re : RawEvent) (key params value : Text) :
    Ensures (applyProperty zone tz re key params value) (fun re' => re'.ev.alarms = re.ev.alarms) := by
  unfold applyProperty
  repeat' first
    | exact ensures_pure (ε := StdError) rfl
    | exact ensures_bind (fun _ _ => ensures_pure (ε := StdError) rfl)
    | apply ensures_ite
  -- SEQUENCE may leave the event as it is
  cases stoi value with
  | ok sequence => exact ensures_pure (ε := StdError) rfl
  | error e => exact ensures_pure (ε := StdError) rfl

theorem applyLine_alarms {re re' : RawEvent} {line : Text} (applied : applyLine zone tz re line = .ok re') :
    re'.ev.alarms = re.ev.alarms := by
  simp only [applyLine] at applied
  split_ifs at applied
  · cases applied
    rfl
  · exact applyProperty_alarms re _ _ _ re' applied

theorem build_alarms {contentLines alarmLines : List Text} {re : RawEvent}
    (bare : build zone tz contentLines [] = .ok re) (alarms : List Alarm) :
    build zone tz contentLines alarmLines = .ok { re with ev.alarms := alarms } ↔
      parseAlarm alarmLines = .ok alarms := by
  obtain ⟨read, folded, rest⟩ := bind_eq_ok.mp bare
  have noAlarms : read.ev.alarms = [] :=
    foldlM_invariant (I := fun _ re => re.ev.alarms = [])
      (fun _ _ _ _ before applied => (applyLine_alarms applied).trans before) [] rfl folded
  obtain ⟨none', parsed, same⟩ := bind_eq_ok.mp rest
  cases parsed
  cases same
  unfold build
  rw [folded]
  cases parseAlarm alarmLines with
  | error e => simp [bind, Except.bind]
  | ok found =>
    simp only [bind, Except.bind, pure, Except.pure, noAlarms, List.nil_append, Except.ok.injEq]
    apply Iff.intro
    · intro same
      exact congrArg (fun re => re.ev.alarms) same
    · intro same
      rw [same]

end Collected

/-! ## One alarm -/

/-- The alarm has the trigger, action and description of the VALARM, the trigger without its
sign and in minutes that an `int` holds. -/
structure IsAlarmOf (v : Valarm) (alarm : Alarm) : Prop where
  trigger : ∃ minutes : Int, alarm.triggerMinutes = some minutes ∧ minutes.natAbs = v.duration.totalMinutes
  fits : (v.duration.totalMinutes : Int) ≤ intMax
  action : alarm.action = v.action
  description : alarm.description = v.description

/-- The trigger is one that is read right, and what is written with parameters, which is not
read, happens to be the default. -/
structure Readable (v : Valarm) : Prop where
  plain : v.trigger.params = []
  sign : v.duration.sign ≠ .plus
  span : v.duration.span.ReadRight
  fits : (v.duration.totalMinutes : Int) ≤ intMax
  action : ∀ line ∈ namedLines "ACTION" v.lines, line.params = [] ∨ reading line = text "DISPLAY"
  description : ∀ line ∈ namedLines "DESCRIPTION" v.lines, line.params = [] ∨ reading line = []

/-- Of the lines with a name, the last one without parameters is read. -/
theorem foldl_field (name : String) (field : AlarmText → Text)
    (step : ∀ (al : AlarmText) (line : ContentLine), field (al.line line.text) =
      if toUpper line.name = text name ∧ line.params = [] then reading line else field al)
    (lines : List ContentLine) (al : AlarmText) :
    field ((lines.map ContentLine.text).foldl AlarmText.line al) =
      (((namedLines name lines).filter (fun line => line.params.isEmpty)).getLast?.map reading).getD (field al) := by
  induction lines generalizing al with
  | nil => rfl
  | cons line rest ih =>
    rw [List.map_cons, List.foldl_cons, ih (al.line line.text), step, namedLines_cons]
    by_cases named : toUpper line.name = text name
    · by_cases plain : line.params = []
      · have isPlain : line.params.isEmpty = true := List.isEmpty_iff.mpr plain
        rw [if_pos ⟨named, plain⟩, if_pos named, List.filter_cons, if_pos isPlain, List.getLast?_cons]
        cases ((namedLines name rest).filter (fun line => line.params.isEmpty)).getLast? <;> rfl
      · simp [named, plain]
    · simp [named]

theorem alarmText_kept (v : Valarm) :
    alarmText v.kept = (v.lines.map ContentLine.text).foldl AlarmText.line {} := by
  rw [alarmText, Valarm.kept, List.foldl_map, List.foldl_map]
  simp only [line_trimmed]

theorem step_field (name : String) (field : AlarmText → Text)
    (set : ∀ (al : AlarmText) (key value : Text),
      field (AlarmText.set al key value) = if key = text name then value else field al)
    (al : AlarmText) (line : ContentLine) : field (al.line line.text) =
      if toUpper line.name = text name ∧ line.params = [] then reading line else field al := by
  by_cases plain : line.params = []
  · rw [line_plain al plain, set]
    simp [plain]
  · rw [line_params al plain]
    simp [plain]

/-- A field of the VALARM that at most one line gives, as it is read and as it is written. -/
theorem field_iff (name : String) (field : AlarmText → Text) (default : Text) {v : Valarm}
    (set : ∀ (al : AlarmText) (key value : Text),
      field (AlarmText.set al key value) = if key = text name then value else field al)
    (unset : field {} = default) (once : (namedLines name v.lines).length ≤ 1) :
    field (alarmText v.kept) = ((namedLines name v.lines).getLast?.map reading).getD default ↔
      ∀ line ∈ namedLines name v.lines, line.params = [] ∨ reading line = default := by
  rw [alarmText_kept, foldl_field name field (step_field name field set), unset]
  cases found : namedLines name v.lines with
  | nil => simp
  | cons line rest =>
    rw [found, List.length_cons] at once
    obtain rfl := List.eq_nil_of_length_eq_zero (show rest.length = 0 by omega)
    by_cases plain : line.params = []
    · simp [plain]
    · simp only [List.filter_cons, List.isEmpty_iff, plain, if_false, List.filter_nil, List.getLast?_nil,
        Option.map_none, Option.getD_none, List.getLast?_singleton, Option.map_some, Option.getD_some,
        List.forall_mem_singleton, false_or]
      exact eq_comm

theorem triggerStr_kept (v : Valarm) :
    (alarmText v.kept).triggerStr = if v.trigger.params = [] then v.duration.text else [] := by
  have read := foldl_field "TRIGGER" AlarmText.triggerStr
    (step_field "TRIGGER" AlarmText.triggerStr (fun al key value => by
      simp only [AlarmText.set]
      split_ifs
      · rfl
      · rfl
      · rfl
      · rfl)) v.lines {}
  rw [alarmText_kept, read, v.onlyTrigger, ← reading_duration v.valued]
  by_cases plain : v.trigger.params = []
  · simp [plain]
  · simp [plain]

theorem action_kept_iff (v : Valarm) : (alarmText v.kept).action = v.action ↔
    ∀ line ∈ namedLines "ACTION" v.lines, line.params = [] ∨ reading line = text "DISPLAY" := by
  apply field_iff "ACTION" AlarmText.action (text "DISPLAY")
  · intro al key value
    have other : text "TRIGGER" ≠ text "ACTION" := by decide
    simp only [AlarmText.set]
    split_ifs <;> simp_all
  · rfl
  · exact v.once "ACTION" (by decide)

theorem description_kept_iff (v : Valarm) : (alarmText v.kept).description = v.description ↔
    ∀ line ∈ namedLines "DESCRIPTION" v.lines, line.params = [] ∨ reading line = [] := by
  apply field_iff "DESCRIPTION" AlarmText.description []
  · intro al key value
    have other : text "TRIGGER" ≠ text "DESCRIPTION" ∧ text "ACTION" ≠ text "DESCRIPTION" := by decide
    simp only [AlarmText.set]
    split_ifs <;> simp_all
  · rfl
  · exact v.once "DESCRIPTION" (by decide)

/-- What `parse_alarm` appends for a VALARM is its alarm exactly where the VALARM is readable. -/
theorem parseAlarm_kept_iff (v : Valarm) :
    (∃ alarm, parseAlarm v.kept = .ok [alarm] ∧ IsAlarmOf v alarm) ↔ Readable v := by
  have trigger := triggerStr_kept v
  by_cases plain : v.trigger.params = []
  · rw [if_pos plain] at trigger
    by_cases fits : (v.duration.totalMinutes : Int) ≤ intMax
    · have small : (v.duration.span.readMinutes : Int) ≤ intMax :=
        (Int.ofNat_le.mpr (readMinutes_le v.duration.span)).trans fits
      have parsed := parseAlarm_duration trigger small
      apply Iff.intro
      · intro given
        obtain ⟨alarm, same, isAlarm⟩ := given
        rw [parsed] at same
        cases same
        obtain ⟨minutes, some, total⟩ := isAlarm.trigger
        have sign : v.duration.sign ≠ .plus := by
          intro plus
          simp [plus] at some
        have read : minutes = v.duration.span.readMinutes := by
          rw [if_neg sign] at some
          exact (Option.some.inj some).symm
        have span : v.duration.span.ReadRight := by
          rw [← readMinutes_iff]
          exact (by simpa [read] using total : v.duration.span.readMinutes = v.duration.totalMinutes)
        exact ⟨plain, sign, span, fits, (action_kept_iff v).mp isAlarm.action,
          (description_kept_iff v).mp isAlarm.description⟩
      · intro readable
        refine ⟨_, parsed, ?_, fits, (action_kept_iff v).mpr readable.action,
          (description_kept_iff v).mpr readable.description⟩
        exact ⟨v.duration.span.readMinutes, if_neg readable.sign, (readMinutes_iff _).mpr readable.span⟩
    · apply Iff.intro
      · intro given
        obtain ⟨alarm, _, isAlarm⟩ := given
        exact absurd isAlarm.fits fits
      · intro readable
        exact absurd readable.fits fits
  · rw [if_neg plain] at trigger
    apply Iff.intro
    · intro given
      obtain ⟨alarm, parsed, _⟩ := given
      simp [parseAlarm, trigger, pure, Except.pure] at parsed
    · intro readable
      exact absurd readable.plain plain

/-! ## All alarms -/

theorem parseAlarm_length (lines : List Text) :
    Ensures (parseAlarm lines) (fun alarms => alarms.length ≤ 1) := by
  simp only [parseAlarm]
  apply ensures_ite
  · exact ensures_pure (ε := StdError) (Nat.zero_le _)
  · apply ensures_ite
    · exact ensures_bind (fun _ _ => ensures_pure (ε := StdError) (Nat.le_refl _))
    · exact ensures_pure (ε := StdError) (Nat.le_refl _)

theorem withoutAlarms_lines (items : List Item) :
    ownLines (withoutAlarms items) = ownLines items ∧ valarms (withoutAlarms items) = [] := by
  induction items with
  | nil => exact ⟨rfl, rfl⟩
  | cons item rest ih =>
    obtain ⟨own, alarms⟩ := ih
    cases item with
    | own line plain => exact ⟨congrArg (line :: ·) own, alarms⟩
    | alarm v => exact ⟨own, alarms⟩

/-- The raw event of a VEVENT is that of its own lines with the alarms of its VALARM blocks,
exactly where there is no such block, or a single one that is readable. -/
theorem alarms_collected_iff {zone : SystemZone} {tz : TimezoneResolver} {c : Collect} {items : List Item}
    {re : RawEvent} (bare : Collected zone tz c (veventLines (withoutAlarms items)) re) :
    (∃ alarms, Collected zone tz c (veventLines items) { re with ev.alarms := alarms } ∧
        List.Forall₂ IsAlarmOf (valarms items) alarms) ↔
      valarms items = [] ∨ ∃ v, valarms items = [v] ∧ Readable v := by
  obtain ⟨filled, known, built⟩ := collected_iff.mp bare
  obtain ⟨own, none'⟩ := withoutAlarms_lines items
  rw [own] at filled
  rw [own, none'] at built
  have collected (alarms : List Alarm) : Collected zone tz c (veventLines items) { re with ev.alarms := alarms } ↔
      parseAlarm (((valarms items).getLast?.map Valarm.kept).getD []) = .ok alarms := by
    rw [collected_iff, build_alarms built alarms]
    simp only [filled, known, ne_eq, not_false_eq_true, true_and]
  simp only [collected]
  cases found : valarms items with
  | nil => simp [parseAlarm, alarmText, pure, Except.pure]
  | cons v rest =>
    cases rest with
    | nil =>
      simp only [List.getLast?_singleton, Option.map_some, Option.getD_some, reduceCtorEq, false_or,
        List.cons.injEq, and_true, exists_eq_left', ← parseAlarm_kept_iff]
      apply Iff.intro
      · intro given
        obtain ⟨alarms, parsed, each⟩ := given
        cases each with
        | cons isAlarm none =>
          cases none
          exact ⟨_, parsed, isAlarm⟩
      · intro given
        obtain ⟨alarm, parsed, isAlarm⟩ := given
        exact ⟨[alarm], parsed, .cons isAlarm .nil⟩
    | cons second rest =>
      simp only [reduceCtorEq, List.cons.injEq, false_and, and_false, exists_false, or_self, iff_false]
      intro given
      obtain ⟨alarms, parsed, each⟩ := given
      -- two alarms cannot both come from one call of parse_alarm
      have few : alarms.length ≤ 1 := parseAlarm_length _ alarms parsed
      have many := each.length_eq
      simp only [List.length_cons] at many
      omega

def ownUid : Item := .own (text "UID:a") (by decide +kernel)

def alarmBefore (d : Duration) : Valarm where
  lines := [triggerLine d]
  trigger := triggerLine d
  duration := d
  onlyTrigger := rfl
  valued := rfl
  once := by
    intro name either
    rcases List.mem_pair.mp either with rfl | rfl
    · exact Nat.zero_le 1
    · exact Nat.zero_le 1
  noMarkers := by
    intro line inside
    obtain rfl := List.mem_singleton.mp inside
    show toUpper (text "TRIGGER") ≠ text "BEGIN" ∧ toUpper (text "TRIGGER") ≠ text "END"
    decide

theorem alarms_collected_iff_quarter :
    let items := [ownUid, .alarm (alarmBefore quarter)]
    (∃ alarms, Collected (.fixed 0) ∅ {} (veventLines items) { ev := { uid := text "a", alarms } } ∧
        List.Forall₂ IsAlarmOf (valarms items) alarms) ↔
      valarms items = [] ∨ ∃ v, valarms items = [v] ∧ Readable v :=
  alarms_collected_iff (show Collected (.fixed 0) ∅ {} (veventLines (withoutAlarms
      [ownUid, .alarm (alarmBefore quarter)])) { ev := { uid := text "a" } } from
    collected_iff.mpr ⟨by decide, by decide, by decide +kernel⟩)

/-- Of two alarms, the first one is lost. -/
theorem first_alarm_lost :
    ¬∀ (zone : SystemZone) (tz : TimezoneResolver) (c : Collect) (items : List Item) (re : RawEvent),
      Collected zone tz c (veventLines (withoutAlarms items)) re →
      ∃ alarms, Collected zone tz c (veventLines items) { re with ev.alarms := alarms } ∧
        List.Forall₂ IsAlarmOf (valarms items) alarms := by
  intro always
  have bare : Collected (.fixed 0) ∅ {} (veventLines (withoutAlarms
      [ownUid, .alarm (alarmBefore halfHour), .alarm (alarmBefore quarter)])) { ev := { uid := text "a" } } :=
    collected_iff.mpr ⟨by decide, by decide, by decide +kernel⟩
  obtain ⟨alarms, both, each⟩ := always _ _ _ _ _ bare
  have built : build (.fixed 0) ∅ [text "UID:a"] (alarmBefore quarter).kept =
      .ok { ev := { uid := text "a", alarms := [{ triggerMinutes := some 15, action := text "DISPLAY" }] } } := by
    decide +kernel
  have one := built.symm.trans (collected_iff.mp both).2.2
  have last : [{ triggerMinutes := some 15, action := text "DISPLAY" }] = alarms :=
    congrArg (fun re => re.ev.alarms) (Except.ok.inj one)
  subst last
  exact absurd each.length_eq (by decide)

end DivoomDev.Ics.AlarmBlocks
