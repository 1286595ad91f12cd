import DivoomDev.Ics.Exclusion

/-! Cancelled VEVENTs. The builder knows one of the two spellings of the status, so a VEVENT
with the other one is treated as if it took place. -/

namespace DivoomDev.Ics.Cancellation
open DivoomDev.Library.Bytes DivoomDev.Library.Fallible TextUtils Timezone Models Datetime Recurrence
  EventBuilder Window OverrideApplier Pipeline Clocks ClockArithmetic ClockPipeline Series Properties Exclusion

def statusText (block : VeventBlock) : Option Text :=
  (lastValue "STATUS" block.eventLines).map (fun property => toUpper property.2)

def Cancelled (block : VeventBlock) : Prop :=
  statusText block = some (text "CANCELLED") ∨ statusText block = some (text "CANCELED")

theorem status_canceled_iff {zone : SystemZone} {tz : TimezoneResolver} {v : Vevent}
    (keeps : KeepsEvent zone tz v.block.eventLines v.raw) (cancelled : Cancelled v.block) :
    v.raw.ev.status = .canceled ↔ statusText v.block = some (text "CANCELED") := by
  rw [keeps.status, statusRead]
  unfold Cancelled statusText at cancelled
  unfold statusText
  generalize lastValue "STATUS" v.block.eventLines = last at cancelled ⊢
  cases last with
  | none => simp at cancelled
  | some property =>
    simp only [Option.map_some, Option.some.injEq] at cancelled ⊢
    show readStatus property.2 = .canceled ↔ _
    unfold readStatus
    by_cases known : toUpper property.2 = text "CANCELED"
    · simp [known]
    · have other : toUpper property.2 = text "CANCELLED" := cancelled.resolve_right known
      rw [other]
      decide

theorem mem_tracedEvents_override {zone : SystemZone} {now : TimePoint} {settings : CalendarSettings}
    {vevents : List Vevent} (traced : TracedEvent) (override : traced.source.raw.hasRecurrenceId = true) :
    traced ∈ tracedEvents zone now settings vevents ↔ traced.source ∈ vevents ∧
      overrideShown (computeWindow zone now settings) traced.source.raw = true ∧
      traced.event = traced.source.raw.ev := by
  have none : masterEvents zone (computeWindow zone now settings)
      (buildIndex (vevents.map Vevent.raw)) traced.source.raw = [] := by
    simp [masterEvents, override]
  simp [mem_tracedEvents, none]

theorem override_untraced_iff {zone : SystemZone} {now : TimePoint} {settings : CalendarSettings}
    {vevents : List Vevent} {v : Vevent} (member : v ∈ vevents) (override : v.raw.hasRecurrenceId = true) :
    (∀ traced ∈ tracedEvents zone now settings vevents, traced.source ≠ v) ↔
      v.raw.ev.status = .canceled ∨ inWindow v.raw.ev.start (computeWindow zone now settings) = false := by
  have traced : (⟨v, v.raw.ev⟩ : TracedEvent) ∈ tracedEvents zone now settings vevents ↔ _ :=
    mem_tracedEvents_override _ override
  simp only [member, true_and, and_true, overrideShown, override, Bool.and_eq_true,
    decide_eq_true_eq] at traced
  apply Iff.intro
  · intro absent
    by_contra missed
    simp only [not_or, Bool.not_eq_false] at missed
    exact absent _ (traced.mpr missed) rfl
  · intro silent other inside source
    subst source
    have shown := ((mem_tracedEvents_override other override).mp inside).2.1
    simp only [overrideShown, Bool.and_eq_true, decide_eq_true_eq] at shown
    rcases silent with canceled | outside
    · exact shown.1.2 canceled
    · exact absurd shown.2 (Bool.not_eq_true _ ▸ outside)

theorem master_untraced_iff {zone : SystemZone} {icsContent : Text} {vevents : List Vevent}
    (read : calendarVevents zone icsContent = .ok vevents) (sound : zone.Sound) (now : TimePoint)
    (settings : CalendarSettings) {v : Vevent} (member : v ∈ vevents)
    (master : v.raw.hasRecurrenceId = false) :
    (∀ traced ∈ tracedEvents zone now settings vevents, traced.source ≠ v) ↔
      v.raw.ev.status = .canceled ∨ ∀ instant, TakenByText zone vevents v instant ∨
        ¬MasterDue zone (computeWindow zone now settings) v.raw instant := by
  have notShown := not_shown_iff read sound now settings member master
  apply Iff.intro
  · intro absent
    apply Or.inr
    intro instant
    apply (notShown instant).mp
    intro traced inside source
    exact absurd source (absent traced inside)
  · intro silent traced inside source
    have idle : TakenByText zone vevents v traced.event.start ∨
        ¬MasterDue zone (computeWindow zone now settings) v.raw traced.event.start := by
      rcases silent with canceled | idle
      · exact .inr (fun due => due.1 canceled)
      · exact idle traced.event.start
    exact (notShown traced.event.start).mpr idle traced inside source rfl

/-- The VEVENT has nothing to show, whatever its status: as an override it starts outside the
window, and otherwise no instant of it is due and left to it. -/
def Idle (zone : SystemZone) (win : TimeWindow) (vevents : List Vevent) (v : Vevent) : Prop :=
  if v.raw.hasRecurrenceId then inWindow v.raw.ev.start win = false
  else ∀ instant, TakenByText zone vevents v instant ∨ ¬MasterDue zone win v.raw instant

theorem nothing_traced_iff {zone : SystemZone} {icsContent : Text} {vevents : List Vevent}
    (read : calendarVevents zone icsContent = .ok vevents) (sound : zone.Sound) (now : TimePoint)
    (settings : CalendarSettings) {v : Vevent} (member : v ∈ vevents) :
    (∀ traced ∈ tracedEvents zone now settings vevents, traced.source ≠ v) ↔
      v.raw.ev.status = .canceled ∨ Idle zone (computeWindow zone now settings) vevents v := by
  unfold Idle
  by_cases override : v.raw.hasRecurrenceId = true
  · rw [if_pos override]
    exact override_untraced_iff member override
  · rw [if_neg override]
    exact master_untraced_iff read sound now settings member (Bool.eq_false_iff.mpr override)

/-- Nothing is returned that comes from a cancelled VEVENT, nor, where it is an override, the
occurrence of its master that it names. -/
def CancellationsHonoured (p : Platform) (zone : SystemZone) (icsContent : Text) (now : TimePoint)
    (settings : CalendarSettings) : Prop :=
  ∀ vevents, calendarVevents zone icsContent = .ok vevents → ∀ v ∈ vevents, Cancelled v.block →
    (∀ traced ∈ tracedEventsOn p zone (p.point now) settings vevents, traced.source ≠ v) ∧
      ∀ instant, Overrides zone icsContent v instant →
        ∀ traced ∈ tracedEventsOn p zone (p.point now) settings vevents,
          traced.source.raw.hasRecurrenceId = false → traced.source.raw.ev.uid = v.raw.ev.uid →
          traced.event.start ≠ p.point instant

/-- Each cancelled VEVENT is spelled CANCELED or has nothing to show, and the occurrence that
it names is taken from its master in the one notation that is looked for, or is not due. -/
def CanceledOrIdle (zone : SystemZone) (icsContent : Text) (now : TimePoint)
    (settings : CalendarSettings) : Prop :=
  ∀ vevents, calendarVevents zone icsContent = .ok vevents → ∀ v ∈ vevents, Cancelled v.block →
    (statusText v.block = some (text "CANCELED") ∨
        Idle zone (computeWindow zone now settings) vevents v) ∧
      ∀ instant, Overrides zone icsContent v instant →
        ∀ m ∈ vevents, m.raw.hasRecurrenceId = false → m.raw.ev.uid = v.raw.ev.uid →
          TakenByText zone vevents m instant ∨
            ¬MasterDue zone (computeWindow zone now settings) m.raw instant

/-- A cancellation takes effect, where no time overflows, exactly where the status is spelled with one
L, or where there is nothing to show. -/
theorem cancellationsHonoured_iff {p : Platform} {zone : SystemZone} (sound : zone.Sound) {icsContent : Text}
    {now : TimePoint} {settings : CalendarSettings} (fits : NoOverflow p zone now settings icsContent) :
    CancellationsHonoured p zone icsContent now settings ↔
      CanceledOrIdle zone icsContent now settings := by
  refine forall_congr' fun vevents => forall_congr' fun read => forall_congr' fun v =>
    forall_congr' fun member => forall_congr' fun cancelled => ?_
  rw [tracedEventsOn_eq (fits vevents read)]
  simp only [List.forall_mem_map, tracedOf, event_start, ne_eq, Platform.point_inj]
  refine and_congr ?_ ?_
  · rw [← status_canceled_iff (calendarVevents_keeps read member).event cancelled]
    exact nothing_traced_iff read sound now settings member
  · apply forall_congr'
    intro instant
    apply forall_congr'
    intro _
    exact none_shown_iff read sound now settings v.raw.ev.uid instant

def cancelledLines : List Text :=
  [text "UID:a", text "DTSTART:20260904T100000Z", text "STATUS:CANCELLED"]

def cancelledVevent : Vevent where
  block := ⟨cancelledLines, []⟩
  raw := { ev := { uid := text "a", start := fromTimeT 1788516000 } }

theorem cancelledVevent_read :
    calendarVevents (.fixed 0) (veventText cancelledLines) = .ok [cancelledVevent] := by
  decide +kernel

theorem cancellationsHonoured_iff_utc :
    CancellationsHonoured .msvc (.fixed 0) (veventText cancelledLines) (fromTimeT 1788480000) {} ↔
      CanceledOrIdle (.fixed 0) (veventText cancelledLines) (fromTimeT 1788480000) {} :=
  cancellationsHonoured_iff (fixed_sound 0)
    (noOverflow_of_read .msvc _ _ _ cancelledVevent_read (by decide +kernel))

/-- A VEVENT with the status CANCELLED is returned. -/
theorem cancelled_returned :
    ¬∀ p zone icsContent now settings, CancellationsHonoured p zone icsContent now settings := by
  intro always
  have cancelled : Cancelled cancelledVevent.block := .inl (by decide +kernel)
  have absent := (always .msvc (.fixed 0) _ (fromTimeT 1788480000) {} _ cancelledVevent_read cancelledVevent
    (by simp) cancelled).1
  exact absent ⟨cancelledVevent, cancelledVevent.raw.ev⟩ (by decide +kernel) rfl

end DivoomDev.Ics.Cancellation
