import DivoomDev.Library.Commuting
import DivoomDev.Ics.Selection
import DivoomDev.Ics.Exclusion

/-! The order of the properties in a VEVENT block: it counts only among properties of one name. -/

namespace DivoomDev.Ics.PropertyOrder
open DivoomDev.Library.Bytes DivoomDev.Library.Fallible DivoomDev.Library.Commuting TextUtils Timezone Models
  Datetime Recurrence EventBuilder Window OverrideApplier Pipeline Properties Selection
  Exclusion

/-! ## What a property writes -/

/-- The change that a property makes, read off its text alone. -/
inductive Update where
  | ignored
  | summary (value : Text)
  | description (value : Text)
  | uid (value : Text)
  | location (value : Text)
  | sequence (value : Int)
  | url (value : Text)
  | categories (value : Text)
  | status (value : EventStatus)
  | start (value : TimePoint)
  | end_ (value : TimePoint)
  | created (value : TimePoint)
  | lastModified (value : TimePoint)
  | stamp (value : TimePoint)
  | organizer (mail name : Text)
  | rrule (rule : RruleData)
  | recurrenceId (value : Text)
  | exdates (parts : List Text)

namespace Update

def name : Update → Option Text
  | ignored => none
  | summary _ => some (text "SUMMARY")
  | description _ => some (text "DESCRIPTION")
  | uid _ => some (text "UID")
  | location _ => some (text "LOCATION")
  | sequence _ => some (text "SEQUENCE")
  | url _ => some (text "URL")
  | categories _ => some (text "CATEGORIES")
  | status _ => some (text "STATUS")
  | start _ => some (text "DTSTART")
  | end_ _ => some (text "DTEND")
  | created _ => some (text "CREATED")
  | lastModified _ => some (text "LAST-MODIFIED")
  | stamp _ => some (text "DTSTAMP")
  | organizer _ _ => some (text "ORGANIZER")
  | rrule _ => some (text "RRULE")
  | recurrenceId _ => some (text "RECURRENCE-ID")
  | exdates _ => some (text "EXDATE")

def apply (re : RawEvent) : Update → RawEvent
  | ignored => re
  | summary value => { re with ev.summary := value }
  | description value => { re with ev.description := value }
  | uid value => { re with ev.uid := value }
  | location value => { re with ev.location := value }
  | sequence value => { re with ev.sequence := value }
  | url value => { re with ev.url := value }
  | categories value => { re with ev.categories := value }
  | status value => { re with ev.status := value }
  | start value => { re with ev.start := value }
  | end_ value => { re with ev.end_ := value }
  | created value => { re with ev.created := value }
  | lastModified value => { re with ev.lastModified := value }
  | stamp value => { re with ev.stamp := value }
  | organizer mail name => { re with ev.organizer := mail, ev.organizerName := name }
  | rrule rule => { re with rrule := rule, hasRrule := true }
  | recurrenceId value => { re with hasRecurrenceId := true, recurrenceId := value }
  | exdates parts =>
      { re with exdates := re.exdates.insertMany parts, ev.exdates := re.ev.exdates.insertMany parts }

/-- Updates of different names write different fields. -/
theorem apply_comm {u v : Update} (different : u.name ≠ v.name ∨ u = ignored ∨ v = ignored) (re : RawEvent) :
    apply (apply re u) v = apply (apply re v) u := by
  rcases different with names | rfl | rfl
  · cases u <;> cases v <;> first | rfl | exact absurd rfl names
  · rfl
  · rfl

end Update

def readProperty (zone : SystemZone) (tz : TimezoneResolver) (key params value : Text) : Except StdError Update :=
  if key = text "SUMMARY" then pure (.summary (trim (unescape value)))
  else if key = text "DESCRIPTION" then pure (.description (unescape value))
  else if key = text "UID" then pure (.uid value)
  else if key = text "LOCATION" then pure (.location (unescape value))
  else if key = text "SEQUENCE" then
    pure (match stoi value with
      | .ok sequence => .sequence sequence
      | .error _ => .ignored)
  else if key = text "URL" then pure (.url value)
  else if key = text "CATEGORIES" then pure (.categories (unescape value))
  else if key = text "STATUS" then pure (.status (readStatus value))
  else if key = text "DTSTART" then (parseIcsDatetime zone tz (makeDatetimeInfo params value)).map .start
  else if key = text "DTEND" then (parseIcsDatetime zone tz (makeDatetimeInfo params value)).map .end_
  else if key = text "CREATED" then pure (.created (parseStamp zone value))
  else if key = text "LAST-MODIFIED" then pure (.lastModified (parseStamp zone value))
  else if key = text "DTSTAMP" then pure (.stamp (parseStamp zone value))
  else if key = text "ORGANIZER" then
    pure (.organizer (mailAddress value) (unescape (paramValue params "CN")))
  else if key = text "RRULE" then (parseRruleData zone value).map .rrule
  else if key = text "RECURRENCE-ID" then pure (.recurrenceId (behindLastColon value))
  else if key = text "EXDATE" then pure (.exdates (exdateParts value))
  else pure .ignored

theorem readProperty_sequence {zone : SystemZone} {tz : TimezoneResolver} {params value : Text} {sequence : Int}
    (read : stoi value = .ok sequence) :
    readProperty zone tz (text "SEQUENCE") params value = .ok (.sequence sequence) := by
  show Except.ok (match stoi value with
    | .ok sequence => Update.sequence sequence
    | .error _ => .ignored) = _
  rw [read]

theorem ite_eq_map {ε α β : Type} {condition : Prop} [Decidable condition] {f : α → β} {x y : Except ε β}
    {x' y' : Except ε α} (left : x = x'.map f) (right : y = y'.map f) :
    (if condition then x else y) = (if condition then x' else y').map f := by
  split_ifs
  · exact left
  · exact right

theorem applyProperty_eq (zone : SystemZone) (tz : TimezoneResolver) (re : RawEvent) (key params value : Text) :
    applyProperty zone tz re key params value = (readProperty zone tz key params value).map (Update.apply re) := by
  unfold applyProperty readProperty
  repeat' apply ite_eq_map
  all_goals first
    | rfl
    | cases stoi value <;> rfl
    | cases parseIcsDatetime zone tz (makeDatetimeInfo params value) <;> rfl
    | cases parseRruleData zone value <;> rfl

theorem ensures_ite_key {ε : Type} {key name : Text} {x y : Except ε Update}
    (here : key = name → Ensures x (fun u => ∀ own ∈ u.name, own = key))
    (elsewhere : Ensures y (fun u => ∀ own ∈ u.name, own = key)) :
    Ensures (if key = name then x else y) (fun u => ∀ own ∈ u.name, own = key) := by
  split_ifs with same
  · exact here same
  · exact elsewhere

theorem readProperty_name (zone : SystemZone) (tz : TimezoneResolver) (key params value : Text) :
    Ensures (readProperty zone tz key params value) (fun u => ∀ own ∈ u.name, own = key) := by
  have named (u : Update) (own : u.name = some key) :
      Ensures (pure u : Except StdError Update) (fun u => ∀ own ∈ u.name, own = key) :=
    ensures_pure (fun _ member => Option.some.inj (member.symm.trans own))
  have mapped {α : Type} (x : Except StdError α) (update : α → Update) (own : ∀ a, (update a).name = some key) :
      Ensures (x.map update) (fun u => ∀ own ∈ u.name, own = key) := by
    intro u read
    obtain ⟨a, _, rfl⟩ := map_eq_ok.mp read
    exact fun _ member => Option.some.inj (member.symm.trans (own a))
  have ignored : Ensures (pure .ignored : Except StdError Update) (fun u => ∀ own ∈ u.name, own = key) :=
    ensures_pure (fun _ member => by cases member)
  unfold readProperty
  repeat' refine ensures_ite_key (fun same => ?_) ?_
  -- SEQUENCE is passed over where its number does not read
  case refine_2.refine_2.refine_2.refine_2.refine_1 =>
    cases stoi value with
    | ok sequence => exact named _ (congrArg some same.symm)
    | error e => exact ignored
  all_goals first
    | exact named _ (congrArg some same.symm)
    | exact mapped _ _ (fun _ => congrArg some same.symm)
    | exact ignored

/-! ## Blocks -/

def readLine (zone : SystemZone) (tz : TimezoneResolver) (line : Text) : Except StdError Update :=
  readProperty zone tz (nameOf line) (splitIcsLine (trim line)).2.1 (splitIcsLine (trim line)).2.2

theorem applyLine_readLine (zone : SystemZone) (tz : TimezoneResolver) (re : RawEvent) (line : Text) :
    applyLine zone tz re line = (readLine zone tz line).map (Update.apply re) := by
  rw [applyLine_eq, applyProperty_eq, readLine]

/-- The blocks have the same alarm, and of each name the same properties in the same order. -/
structure SameProperties (block block' : VeventBlock) : Prop where
  lines : SameSlots nameOf block.eventLines block'.eventLines
  alarm : block.alarmLines = block'.alarmLines

theorem updates_commute {zone : SystemZone} {tz : TimezoneResolver} (re : RawEvent) (a b : Text) (u v : Update)
    (different : nameOf a ≠ nameOf b) (readA : readLine zone tz a = .ok u) (readB : readLine zone tz b = .ok v) :
    Update.apply (Update.apply re u) v = Update.apply (Update.apply re v) u := by
  have ownA := readProperty_name zone tz _ _ _ u readA
  have ownB := readProperty_name zone tz _ _ _ v readB
  apply Update.apply_comm
  cases nameU : u.name with
  | none =>
    right
    left
    cases u <;> first | rfl | cases nameU
  | some name =>
    cases nameV : v.name with
    | none =>
      right
      right
      cases v <;> first | rfl | cases nameV
    | some name' =>
      left
      intro same
      rw [← ownA name nameU, ← ownB name' nameV] at different
      exact different (Option.some.inj same)

theorem build_sameProperties {zone : SystemZone} {tz : TimezoneResolver} {block block' : VeventBlock}
    (same : SameProperties block block') {re : RawEvent} :
    build zone tz block.eventLines block.alarmLines = .ok re ↔
      build zone tz block'.eventLines block'.alarmLines = .ok re := by
  have lines (re : RawEvent) : block.eventLines.foldlM (applyLine zone tz) {} = .ok re ↔
      block'.eventLines.foldlM (applyLine zone tz) {} = .ok re := by
    have whole : applyLine zone tz = fun re line => (readLine zone tz line).map (Update.apply re) := by
      funext re line
      exact applyLine_readLine zone tz re line
    rw [whole]
    exact foldlM_sameSlots updates_commute same.lines
  simp only [build, bind_eq_ok, lines, same.alarm]

/-! ## Calendars -/

theorem mapM_sameProperties {zone : SystemZone} {tz : TimezoneResolver} {blocks blocks' : List VeventBlock}
    (same : List.Forall₂ SameProperties blocks blocks') {vevents : List Vevent}
    (built : blocks.mapM (buildVevent zone tz) = .ok vevents) :
    ∃ vevents', blocks'.mapM (buildVevent zone tz) = .ok vevents' ∧
      vevents'.map Vevent.raw = vevents.map Vevent.raw := by
  induction same generalizing vevents with
  | nil =>
    cases built
    exact ⟨[], rfl, rfl⟩
  | @cons block block' _ _ here _ ih =>
    simp only [List.mapM_cons, bind_eq_ok] at built ⊢
    obtain ⟨v, hit, rest, later, whole⟩ := built
    obtain ⟨re, made, first⟩ := bind_eq_ok.mp hit
    cases first
    cases whole
    obtain ⟨rest', later', raws⟩ := ih later
    refine ⟨⟨block', re⟩ :: rest', ⟨⟨block', re⟩, ?_, rest', later', rfl⟩,
      by rw [List.map_cons, List.map_cons, raws]⟩
    exact bind_eq_ok.mpr ⟨re, (build_sameProperties here).mp made, rfl⟩

theorem calendarVevents_sameProperties {zone : SystemZone} {icsContent icsContent' : Text}
    (zones : collectVtimezones icsContent = collectVtimezones icsContent')
    (same : List.Forall₂ SameProperties (veventBlocks icsContent) (veventBlocks icsContent'))
    {vevents : List Vevent} (read : calendarVevents zone icsContent = .ok vevents) :
    ∃ vevents', calendarVevents zone icsContent' = .ok vevents' ∧
      vevents'.map Vevent.raw = vevents.map Vevent.raw := by
  obtain ⟨built, mapped, whole⟩ := bind_eq_ok.mp read
  cases whole
  obtain ⟨built', mapped', raws⟩ := mapM_sameProperties same mapped
  refine ⟨built'.filter (fun v => v.raw.ev.uid ≠ []), ?_, ?_⟩
  · rw [calendarVevents, ← zones, mapped']
    rfl
  · have named (vevents : List Vevent) : (vevents.filter (fun v => v.raw.ev.uid ≠ [])).map Vevent.raw =
        (vevents.map Vevent.raw).filter (fun r => r.ev.uid ≠ []) := by
      rw [List.filter_map]
      rfl
    rw [named, named, raws]

/-- Calendars whose VEVENTs have the same properties of each name in the same order return the
same events, however properties of different names are arranged. -/
theorem parseCalendarAt_sameProperties {zone : SystemZone} {icsContent icsContent' : Text}
    (zones : collectVtimezones icsContent = collectVtimezones icsContent')
    (same : List.Forall₂ SameProperties (veventBlocks icsContent) (veventBlocks icsContent')) (now : TimePoint)
    (settings : CalendarSettings) (events : List ScheduledEvent) :
    parseCalendarAt zone icsContent now settings = .ok events ↔
      parseCalendarAt zone icsContent' now settings = .ok events := by
  have passes {a b : Text} (zones : collectVtimezones a = collectVtimezones b)
      (same : List.Forall₂ SameProperties (veventBlocks a) (veventBlocks b))
      (returned : parseCalendarAt zone a now settings = .ok events) :
      parseCalendarAt zone b now settings = .ok events := by
    obtain ⟨vevents, read, rfl⟩ := parseCalendarAt_ok returned
    obtain ⟨vevents', read', raws⟩ := calendarVevents_sameProperties zones same read
    rw [parseCalendarAt_eq read', raws]
  have swapped : List.Forall₂ SameProperties (veventBlocks icsContent') (veventBlocks icsContent) :=
    same.flip.imp (fun _ _ alike => ⟨fun name => (alike.lines name).symm, alike.alarm.symm⟩)
  exact Iff.intro (passes zones same) (passes zones.symm swapped)

def sortedLines : List Text :=
  [text "UID:a", text "DTSTART:20260910T100000Z", text "RRULE:FREQ=MONTHLY", text "EXDATE:20261010T000000",
    text "EXDATE:20261110T000000"]

/-- The same properties turned round, apart from the order of the two EXDATEs. -/
def turnedLines : List Text :=
  [text "EXDATE:20261010T000000", text "EXDATE:20261110T000000", text "RRULE:FREQ=MONTHLY",
    text "DTSTART:20260910T100000Z", text "UID:a"]

theorem parseCalendarAt_sameProperties_turned :
    ∃ events, parseCalendarAt (.fixed 0) (veventText turnedLines) (fromTimeT 1789862400) {} = .ok events ∧
      events.map (fun event => event.start) = [fromTimeT 1788998400] := by
  have same : List.Forall₂ SameProperties (veventBlocks (veventText sortedLines))
      (veventBlocks (veventText turnedLines)) := by
    rw [show veventBlocks (veventText sortedLines) = [⟨sortedLines, []⟩] by decide +kernel,
      show veventBlocks (veventText turnedLines) = [⟨turnedLines, []⟩] by decide +kernel]
    exact .cons ⟨by decide +kernel, rfl⟩ .nil
  have starts : (parseCalendarAt (.fixed 0) (veventText sortedLines) (fromTimeT 1789862400) {}).map
      (List.map (fun event => event.start)) = .ok [fromTimeT 1788998400] := by decide +kernel
  obtain ⟨events, returned, listed⟩ := map_eq_ok.mp starts
  exact ⟨events, (parseCalendarAt_sameProperties (by decide +kernel) same _ _ events).mp returned, listed⟩

end DivoomDev.Ics.PropertyOrder
