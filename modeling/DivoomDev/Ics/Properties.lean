import DivoomDev.Library.Fallible
import DivoomDev.Ics.Pipeline

/-! What a raw event keeps of the text of its VEVENT block: which EXDATE texts, which
RECURRENCE-ID, status and times, and that its rule is one that an expander can follow. -/

namespace DivoomDev.Ics.Properties
open DivoomDev.Library.Bytes DivoomDev.Library.Fallible TextUtils Timezone Models Datetime Recurrence
  EventBuilder Pipeline

def nameOf (line : Text) : Text := (splitIcsLine (trim line)).1

/-- The parameters and the value of every property of a name, in the order of the lines. -/
def values (name : String) (lines : List Text) : List (Text × Text) :=
  (lines.filter (fun line => nameOf line = text name)).map (fun line => (splitIcsLine (trim line)).2)

/-- The property that counts where each line of a name replaces the one before. -/
def lastValue (name : String) (lines : List Text) : Option (Text × Text) := (values name lines).getLast?

def exdateTexts (lines : List Text) : List Text :=
  (values "EXDATE" lines).flatMap (fun property => exdateParts property.2)

/-! ## What one line changes -/

def OnlyEvent (re re' : RawEvent) : Prop := ∃ ev, re' = { re with ev := ev }

theorem applyProperty_frame (zone : SystemZone) (tz : TimezoneResolver) (re : RawEvent)
    {key : Text} (params value : Text) (rrule : key ≠ text "RRULE")
    (recurrence : key ≠ text "RECURRENCE-ID") (exdate : key ≠ text "EXDATE") :
    Ensures (applyProperty zone tz re key params value) (OnlyEvent re) := by
  have setsEvent (ev : ScheduledEvent) : Ensures (pure { re with ev := ev }) (OnlyEvent re) :=
    ensures_pure (ε := StdError) ⟨ev, rfl⟩
  simp only [applyProperty, rrule, recurrence, exdate, if_false]
  repeat' first
    | exact setsEvent _
    | exact ensures_bind (fun _ _ => setsEvent _)
    | apply ensures_ite
  -- SEQUENCE may leave the event as it is
  cases stoi value with
  | ok sequence => exact setsEvent _
  | error e => exact setsEvent re.ev

/-- A line without a name is passed over like a property that has no branch. -/
theorem applyLine_eq (zone : SystemZone) (tz : TimezoneResolver) (re : RawEvent) (line : Text) :
    applyLine zone tz re line = applyProperty zone tz re (nameOf line)
      (splitIcsLine (trim line)).2.1 (splitIcsLine (trim line)).2.2 := by
  unfold applyLine nameOf
  dsimp only
  split_ifs with empty
  · rw [empty]
    rfl
  · rfl

theorem applyLine_cases {zone : SystemZone} {tz : TimezoneResolver} {re re' : RawEvent} {line : Text}
    (applied : applyLine zone tz re line = .ok re') :
    (nameOf line = text "RRULE" ∧ ∃ rule, parseRruleData zone (splitIcsLine (trim line)).2.2 = .ok rule ∧
        re' = { re with rrule := rule, hasRrule := true }) ∨
      (nameOf line = text "RECURRENCE-ID" ∧
        re' = { re with
          hasRecurrenceId := true
          recurrenceId := behindLastColon (splitIcsLine (trim line)).2.2 }) ∨
      (nameOf line = text "EXDATE" ∧
        re' = { re with
          exdates := re.exdates.insertMany (exdateParts (splitIcsLine (trim line)).2.2)
          ev.exdates := re.ev.exdates.insertMany (exdateParts (splitIcsLine (trim line)).2.2) }) ∨
      ((nameOf line ≠ text "RRULE" ∧ nameOf line ≠ text "RECURRENCE-ID" ∧ nameOf line ≠ text "EXDATE") ∧
        OnlyEvent re re') := by
  rw [applyLine_eq] at applied
  generalize nameOf line = key at applied ⊢
  generalize (splitIcsLine (trim line)).2 = property at applied ⊢
  obtain ⟨params, value⟩ := property
  by_cases rrule : key = text "RRULE"
  · subst rrule
    obtain ⟨rule, parsed, same⟩ := bind_eq_ok.mp applied
    cases same
    exact .inl ⟨rfl, rule, parsed, rfl⟩
  by_cases recurrence : key = text "RECURRENCE-ID"
  · subst recurrence
    cases applied
    exact .inr (.inl ⟨rfl, rfl⟩)
  by_cases exdate : key = text "EXDATE"
  · subst exdate
    cases applied
    exact .inr (.inr (.inl ⟨rfl, rfl⟩))
  exact .inr (.inr (.inr ⟨⟨rrule, recurrence, exdate⟩,
    applyProperty_frame zone tz re params value rrule recurrence exdate re' applied⟩))

/-! ## EXDATE and RECURRENCE-ID -/

theorem values_append (name : String) (first second : List Text) :
    values name (first ++ second) = values name first ++ values name second := by
  simp [values]

theorem values_singleton (name : String) (line : Text) :
    values name [line] = if nameOf line = text name then [(splitIcsLine (trim line)).2] else [] := by
  split_ifs with same <;> simp [values, same]

theorem lastValue_append (name : String) (lines : List Text) (line : Text) :
    lastValue name (lines ++ [line]) =
      if nameOf line = text name then some (splitIcsLine (trim line)).2 else lastValue name lines := by
  simp only [lastValue, values_append, values_singleton]
  split_ifs <;> simp

theorem exdateTexts_append (first second : List Text) :
    exdateTexts (first ++ second) = exdateTexts first ++ exdateTexts second := by
  simp [exdateTexts, values_append]

/-- What the fold over the lines keeps: the EXDATE texts so far and the last RECURRENCE-ID. -/
structure KeepsText (lines : List Text) (re : RawEvent) : Prop where
  exdates : ∀ value, value ∈ re.exdates ↔ value ∈ exdateTexts lines
  recurrence : re.hasRecurrenceId = (lastValue "RECURRENCE-ID" lines).isSome
  recurrenceId : ∀ property ∈ lastValue "RECURRENCE-ID" lines, re.recurrenceId = behindLastColon property.2

theorem keepsText_nil : KeepsText [] {} where
  exdates value := by simp [exdateTexts, values]
  recurrence := rfl
  recurrenceId _ member := by simp [lastValue, values] at member

theorem keepsText_step {zone : SystemZone} {tz : TimezoneResolver} {lines : List Text} {line : Text}
    {re re' : RawEvent} (keeps : KeepsText lines re) (applied : applyLine zone tz re line = .ok re') :
    KeepsText (lines ++ [line]) re' := by
  have sameRecurrence (other : nameOf line ≠ text "RECURRENCE-ID") :
      lastValue "RECURRENCE-ID" (lines ++ [line]) = lastValue "RECURRENCE-ID" lines := by
    rw [lastValue_append, if_neg other]
  have sameExdates (other : nameOf line ≠ text "EXDATE") :
      exdateTexts (lines ++ [line]) = exdateTexts lines := by
    rw [exdateTexts_append, exdateTexts.eq_1 [line], values_singleton, if_neg other, List.flatMap_nil,
      List.append_nil]
  rcases applyLine_cases applied with ⟨name, rule, _, rfl⟩ | ⟨name, rfl⟩ | ⟨name, rfl⟩ |
    ⟨⟨_, noId, noEx⟩, ev, rfl⟩
  · have noId : nameOf line ≠ text "RECURRENCE-ID" := by rw [name]; decide
    have noEx : nameOf line ≠ text "EXDATE" := by rw [name]; decide
    exact ⟨by simpa [sameExdates noEx] using keeps.exdates,
      by simpa [sameRecurrence noId] using keeps.recurrence,
      by simpa [sameRecurrence noId] using keeps.recurrenceId⟩
  · have noEx : nameOf line ≠ text "EXDATE" := by rw [name]; decide
    have last : lastValue "RECURRENCE-ID" (lines ++ [line]) = some (splitIcsLine (trim line)).2 := by
      rw [lastValue_append, if_pos name]
    exact ⟨by simpa [sameExdates noEx] using keeps.exdates, by simp [last], by simp [last]⟩
  · have noId : nameOf line ≠ text "RECURRENCE-ID" := by rw [name]; decide
    refine ⟨fun value => ?_, by simpa [sameRecurrence noId] using keeps.recurrence,
      by simpa [sameRecurrence noId] using keeps.recurrenceId⟩
    have added : exdateTexts [line] = exdateParts (splitIcsLine (trim line)).2.2 := by
      simp [exdateTexts, values_singleton, name]
    rw [Std.ExtTreeSet.mem_insertMany_list, keeps.exdates, exdateTexts_append, List.mem_append, added]
    simp
  · exact ⟨by simpa [sameExdates noEx] using keeps.exdates,
      by simpa [sameRecurrence noId] using keeps.recurrence,
      by simpa [sameRecurrence noId] using keeps.recurrenceId⟩

/-! ## Status and times -/

/-- The status that the last STATUS line of a block gives. -/
def statusRead (lines : List Text) : EventStatus :=
  match lastValue "STATUS" lines with
  | some property => readStatus property.2
  | none => .confirmed

/-- The instant that the last line of a name denotes; without one it is the epoch. -/
def instantRead (zone : SystemZone) (tz : TimezoneResolver) (name : String) (lines : List Text) :
    Except StdError TimePoint :=
  match lastValue name lines with
  | some property => parseIcsDatetime zone tz (makeDatetimeInfo property.1 property.2)
  | none => pure 0

structure KeepsEvent (zone : SystemZone) (tz : TimezoneResolver) (lines : List Text) (re : RawEvent) :
    Prop where
  status : re.ev.status = statusRead lines
  start : instantRead zone tz "DTSTART" lines = .ok re.ev.start
  end_ : instantRead zone tz "DTEND" lines = .ok re.ev.end_

theorem statusRead_append (lines : List Text) (line : Text) :
    statusRead (lines ++ [line]) =
      if nameOf line = text "STATUS" then readStatus (splitIcsLine (trim line)).2.2 else statusRead lines := by
  rw [statusRead, lastValue_append]
  split_ifs <;> rfl

theorem instantRead_append (zone : SystemZone) (tz : TimezoneResolver) (name : String) (lines : List Text)
    (line : Text) :
    instantRead zone tz name (lines ++ [line]) =
      if nameOf line = text name then
        parseIcsDatetime zone tz
          (makeDatetimeInfo (splitIcsLine (trim line)).2.1 (splitIcsLine (trim line)).2.2)
      else instantRead zone tz name lines := by
  rw [instantRead, lastValue_append]
  split_ifs <;> rfl

theorem applyProperty_event {zone : SystemZone} {tz : TimezoneResolver} {re re' : RawEvent}
    {key params value : Text} (status : key ≠ text "STATUS") (start : key ≠ text "DTSTART")
    (end_ : key ≠ text "DTEND") (applied : applyProperty zone tz re key params value = .ok re') :
    re'.ev.status = re.ev.status ∧ re'.ev.start = re.ev.start ∧ re'.ev.end_ = re.ev.end_ := by
  revert applied
  have same (next : RawEvent) (kept : next.ev.status = re.ev.status ∧ next.ev.start = re.ev.start ∧
      next.ev.end_ = re.ev.end_) : Ensures (pure next : Except StdError RawEvent) (fun re' =>
        re'.ev.status = re.ev.status ∧ re'.ev.start = re.ev.start ∧ re'.ev.end_ = re.ev.end_) :=
    ensures_pure kept
  suffices keeps : Ensures (applyProperty zone tz re key params value) (fun re' =>
      re'.ev.status = re.ev.status ∧ re'.ev.start = re.ev.start ∧ re'.ev.end_ = re.ev.end_) from keeps re'
  simp only [applyProperty, status, start, end_, if_false]
  repeat' first
    | exact same _ ⟨rfl, rfl, rfl⟩
    | exact ensures_bind (fun _ _ => same _ ⟨rfl, rfl, rfl⟩)
    | apply ensures_ite
  -- SEQUENCE may leave the event as it is
  cases stoi value with
  | ok sequence => exact same _ ⟨rfl, rfl, rfl⟩
  | error e => exact same _ ⟨rfl, rfl, rfl⟩

theorem applyLine_event {zone : SystemZone} {tz : TimezoneResolver} {re re' : RawEvent} {line : Text}
    (applied : applyLine zone tz re line = .ok re') :
    (nameOf line = text "STATUS" ∧
        re' = { re with ev.status := readStatus (splitIcsLine (trim line)).2.2 }) ∨
      (nameOf line = text "DTSTART" ∧ ∃ start, parseIcsDatetime zone tz (makeDatetimeInfo
          (splitIcsLine (trim line)).2.1 (splitIcsLine (trim line)).2.2) = .ok start ∧
        re' = { re with ev.start := start }) ∨
      (nameOf line = text "DTEND" ∧ ∃ end_, parseIcsDatetime zone tz (makeDatetimeInfo
          (splitIcsLine (trim line)).2.1 (splitIcsLine (trim line)).2.2) = .ok end_ ∧
        re' = { re with ev.end_ := end_ }) ∨
      ((nameOf line ≠ text "STATUS" ∧ nameOf line ≠ text "DTSTART" ∧ nameOf line ≠ text "DTEND") ∧
        re'.ev.status = re.ev.status ∧ re'.ev.start = re.ev.start ∧ re'.ev.end_ = re.ev.end_) := by
  rw [applyLine_eq] at applied
  generalize nameOf line = key at applied ⊢
  generalize (splitIcsLine (trim line)).2 = property at applied ⊢
  obtain ⟨params, value⟩ := property
  by_cases status : key = text "STATUS"
  · subst status
    cases applied
    exact .inl ⟨rfl, rfl⟩
  by_cases start : key = text "DTSTART"
  · subst start
    obtain ⟨instant, read, same⟩ := bind_eq_ok.mp applied
    cases same
    exact .inr (.inl ⟨rfl, instant, read, rfl⟩)
  by_cases end_ : key = text "DTEND"
  · subst end_
    obtain ⟨instant, read, same⟩ := bind_eq_ok.mp applied
    cases same
    exact .inr (.inr (.inl ⟨rfl, instant, read, rfl⟩))
  exact .inr (.inr (.inr ⟨⟨status, start, end_⟩, applyProperty_event status start end_ applied⟩))

theorem keepsEvent_step {zone : SystemZone} {tz : TimezoneResolver} {lines : List Text} {line : Text}
    {re re' : RawEvent} (keeps : KeepsEvent zone tz lines re) (applied : applyLine zone tz re line = .ok re') :
    KeepsEvent zone tz (lines ++ [line]) re' := by
  obtain ⟨status, start, end_⟩ := keeps
  rcases applyLine_event applied with ⟨name, rfl⟩ | ⟨name, _, read, rfl⟩ | ⟨name, _, read, rfl⟩ |
    ⟨⟨noStatus, noStart, noEnd⟩, sameStatus, sameStart, sameEnd⟩
  · have noStart : nameOf line ≠ text "DTSTART" := by rw [name]; decide
    have noEnd : nameOf line ≠ text "DTEND" := by rw [name]; decide
    exact ⟨by rw [statusRead_append, if_pos name], by rw [instantRead_append, if_neg noStart, start],
      by rw [instantRead_append, if_neg noEnd, end_]⟩
  · have noStatus : nameOf line ≠ text "STATUS" := by rw [name]; decide
    have noEnd : nameOf line ≠ text "DTEND" := by rw [name]; decide
    exact ⟨by rw [statusRead_append, if_neg noStatus, status], by rw [instantRead_append, if_pos name, read],
      by rw [instantRead_append, if_neg noEnd, end_]⟩
  · have noStatus : nameOf line ≠ text "STATUS" := by rw [name]; decide
    have noStart : nameOf line ≠ text "DTSTART" := by rw [name]; decide
    exact ⟨by rw [statusRead_append, if_neg noStatus, status],
      by rw [instantRead_append, if_neg noStart, start], by rw [instantRead_append, if_pos name, read]⟩
  · exact ⟨by rw [statusRead_append, if_neg noStatus, sameStatus, status],
      by rw [instantRead_append, if_neg noStart, sameStart, start],
      by rw [instantRead_append, if_neg noEnd, sameEnd, end_]⟩

/-! ## Rules that an expander can follow -/

theorem stoi_digits_nonneg {digits : Text} {value : Int} (all : ∀ c ∈ digits, isDigit c = true)
    (read : stoi digits = .ok value) : 0 ≤ value := by
  unfold stoi at read
  split at read
  · cases read
  next number found =>
  split_ifs at read
  cases read
  obtain ⟨blanks, front, rest, sign, mark, rfl, _, signed, _, _, _, rfl⟩ := strtol_parts digits _ found
  rcases signed with same | same | same <;> cases same
  · simp
  · simp
  · exact absurd (all (byte '-') (by simp)) (by decide)

theorem some1_digits {s digits : Text} (found : some1 isDigit s = some digits) :
    ∀ c ∈ digits, isDigit c = true := by
  unfold some1 at found
  split_ifs at found
  cases found
  exact fun c member => List.mem_takeWhile_imp member

theorem readInterval_nonneg {rrule : Text} {interval : Int}
    (read : readInterval rrule = .ok interval) : 0 ≤ interval := by
  unfold readInterval at read
  split at read
  · next digits found =>
    refine stoi_digits_nonneg (search_property (P := fun digits => ∀ c ∈ digits, isDigit c = true)
      (fun s digits hit => ?_) rrule digits found) read
    unfold intervalRe behind at hit
    split_ifs at hit
    exact some1_digits hit
  · cases read
    decide

theorem readByday_days (byday : Text) : ∀ d ∈ readByday byday, 1 ≤ d ∧ d ≤ 7 := by
  have named : ∀ name ∈ dayNames, 1 ≤ name.2 ∧ name.2 ≤ 7 := by decide
  unfold readByday
  apply List.foldlRecOn (motive := fun days => ∀ d ∈ days, 1 ≤ d ∧ d ≤ 7)
  · intro d member
    exact absurd member Std.ExtTreeSet.not_mem_empty
  · intro days inWeek day _
    split
    · next name found =>
      intro d member
      rcases Std.ExtTreeSet.mem_insert.mp member with same | old
      · rw [← Std.LawfulEqCmp.compare_eq_iff_eq.mp same]
        exact named name (List.mem_of_find?_eq_some found)
      · exact inWeek d old
    · exact inWeek

/-- A rule that steps forward or not at all, on days of the week from 1 for Monday to 7. -/
structure RuleSound (rule : RruleData) : Prop where
  forward : 0 ≤ rule.interval
  days : ∀ d ∈ rule.byday, 1 ≤ d ∧ d ≤ 7

theorem ruleSound_default : RuleSound {} where
  forward := by decide
  days := by simp

theorem parseRruleData_sound {zone : SystemZone} {rrule : Text} {rule : RruleData}
    (parsed : parseRruleData zone rrule = .ok rule) : RuleSound rule := by
  unfold parseRruleData at parsed
  split_ifs at parsed
  · cases parsed
    exact ruleSound_default
  · obtain ⟨interval, read, rest⟩ := bind_eq_ok.mp parsed
    obtain ⟨_, _, same⟩ := bind_eq_ok.mp rest
    cases same
    refine ⟨readInterval_nonneg read, ?_⟩
    unfold ruleDays
    cases search bydayRe rrule with
    | none => simp
    | some byday => exact readByday_days byday

theorem applyLine_ruleSound {zone : SystemZone} {tz : TimezoneResolver} {re re' : RawEvent} {line : Text}
    (sound : RuleSound re.rrule) (applied : applyLine zone tz re line = .ok re') : RuleSound re'.rrule := by
  rcases applyLine_cases applied with ⟨_, rule, parsed, rfl⟩ | ⟨_, rfl⟩ | ⟨_, rfl⟩ | ⟨_, ev, rfl⟩
  · exact parseRruleData_sound parsed
  all_goals exact sound

/-! ## The raw event of a block -/

/-- What the raw event of a block is known to keep of it. -/
structure KeepsBlock (zone : SystemZone) (tz : TimezoneResolver) (lines : List Text) (re : RawEvent) :
    Prop where
  text : KeepsText lines re
  event : KeepsEvent zone tz lines re
  rule : RuleSound re.rrule

/-- What holds of the raw event of no lines, and is kept by each line and by the alarms, holds
of the raw event of a block. -/
theorem calendarVevents_invariant {zone : SystemZone} {icsContent : Text} {vevents : List Vevent}
    {I : List Text → RawEvent → Prop} (start : I [] {})
    (step : ∀ lines re line re', I lines re →
      applyLine zone (collectVtimezones icsContent) re line = .ok re' → I (lines ++ [line]) re')
    (alarms : ∀ lines re alarms, I lines re → I lines { re with ev.alarms := alarms })
    (read : calendarVevents zone icsContent = .ok vevents) {v : Vevent} (member : v ∈ vevents) :
    I v.block.eventLines v.raw := by
  obtain ⟨built, mapped, same⟩ := bind_eq_ok.mp read
  cases same
  obtain ⟨block, _, made⟩ := (mem_mapM mapped v).mp (List.mem_filter.mp member).1
  obtain ⟨re', folded, same⟩ := bind_eq_ok.mp made
  cases same
  obtain ⟨re, lines, rest⟩ := bind_eq_ok.mp folded
  obtain ⟨added, _, same⟩ := bind_eq_ok.mp rest
  cases same
  exact alarms _ _ _ (foldlM_invariant step [] start lines)

theorem calendarVevents_keeps {zone : SystemZone} {icsContent : Text} {vevents : List Vevent}
    (read : calendarVevents zone icsContent = .ok vevents) {v : Vevent} (member : v ∈ vevents) :
    KeepsBlock zone (collectVtimezones icsContent) v.block.eventLines v.raw := by
  apply calendarVevents_invariant _ _ _ read member
  · exact ⟨keepsText_nil, ⟨rfl, rfl, rfl⟩, ruleSound_default⟩
  · intro lines re line re' keeps applied
    exact ⟨keepsText_step keeps.text applied, keepsEvent_step keeps.event applied,
      applyLine_ruleSound keeps.rule applied⟩
  · intro lines re alarms keeps
    obtain ⟨⟨exdates, recurrence, recurrenceId⟩, ⟨status, start, end_⟩, rule⟩ := keeps
    exact ⟨⟨exdates, recurrence, recurrenceId⟩, ⟨status, start, end_⟩, rule⟩

/-- The rule of a raw event is read from the last RRULE. -/
structure KeepsRule (zone : SystemZone) (lines : List Text) (re : RawEvent) : Prop where
  repeats : re.hasRrule = (lastValue "RRULE" lines).isSome
  rule : ∀ property ∈ lastValue "RRULE" lines, parseRruleData zone property.2 = .ok re.rrule

theorem keepsRule_step {zone : SystemZone} {tz : TimezoneResolver} {lines : List Text} {line : Text}
    {re re' : RawEvent} (keeps : KeepsRule zone lines re) (applied : applyLine zone tz re line = .ok re') :
    KeepsRule zone (lines ++ [line]) re' := by
  have unchanged (other : nameOf line ≠ text "RRULE") {next : RawEvent} (repeats : next.hasRrule = re.hasRrule)
      (rule : next.rrule = re.rrule) : KeepsRule zone (lines ++ [line]) next := by
    have same : lastValue "RRULE" (lines ++ [line]) = lastValue "RRULE" lines := by
      rw [lastValue_append, if_neg other]
    exact ⟨by rw [repeats, same, keeps.repeats], by rw [rule, same]; exact keeps.rule⟩
  rcases applyLine_cases applied with ⟨name, rule, parsed, rfl⟩ | ⟨name, rfl⟩ | ⟨name, rfl⟩ |
    ⟨⟨other, _⟩, ev, rfl⟩
  · have last : lastValue "RRULE" (lines ++ [line]) = some (splitIcsLine (trim line)).2 := by
      rw [lastValue_append, if_pos name]
    exact ⟨by simp [last], by simpa [last] using parsed⟩
  · exact unchanged (by rw [name]; decide) rfl rfl
  · exact unchanged (by rw [name]; decide) rfl rfl
  · exact unchanged other rfl rfl

theorem calendarVevents_keepsRule {zone : SystemZone} {icsContent : Text} {vevents : List Vevent}
    (read : calendarVevents zone icsContent = .ok vevents) {v : Vevent} (member : v ∈ vevents) :
    KeepsRule zone v.block.eventLines v.raw := by
  apply calendarVevents_invariant _ _ _ read member
  · exact ⟨rfl, by simp [lastValue, values]⟩
  · exact fun _ _ _ _ keeps applied => keepsRule_step keeps applied
  · exact fun _ _ _ keeps => ⟨keeps.repeats, keeps.rule⟩

end DivoomDev.Ics.Properties
