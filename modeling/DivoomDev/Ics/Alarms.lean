import DivoomDev.Ics.ContentLines
import DivoomDev.Ics.Durations
import DivoomDev.Ics.RoundTrip

/-! The lines of a VALARM: what each of them is read as, and which triggers are read right. -/

namespace DivoomDev.Ics.Alarms
open DivoomDev.Library.Bytes TextUtils Models EventBuilder RoundTrip ContentLines Durations

/-! ## Trimming a line -/

theorem trim_append_blanks (s : Text) {blanks : Text} (all : ∀ c ∈ blanks, isBlank c = true) :
    trim (s ++ blanks) = trim s := by
  induction blanks generalizing s with
  | nil => rw [List.append_nil]
  | cons c rest ih =>
    obtain ⟨first, others⟩ := List.forall_mem_cons.mp all
    calc trim (s ++ c :: rest) = trim ((s ++ [c]) ++ rest) := by rw [List.append_assoc, List.singleton_append]
      _ = trim (s ++ [c]) := ih (s ++ [c]) others
      _ = trim s := strip_append first s

theorem exists_kept (s : Text) : ∃ kept blanks, s = kept ++ blanks ∧
    (∀ c ∈ blanks, isBlank c = true) ∧ ∀ c ∈ kept.getLast?, isBlank c = false := by
  refine ⟨(s.reverse.dropWhile isBlank).reverse, (s.reverse.takeWhile isBlank).reverse, ?_, ?_, ?_⟩
  · rw [← List.reverse_append, List.takeWhile_append_dropWhile, List.reverse_reverse]
  · intro c member
    exact List.mem_takeWhile_imp (List.mem_reverse.mp member)
  · intro c last
    rw [List.getLast?_reverse] at last
    have solid := List.head?_dropWhile_not isBlank s.reverse
    simp only [Option.mem_def] at last
    simpa [last] using solid

theorem tight_trim (s : Text) : Tight (trim s) := by
  obtain ⟨kept, blanks, same, all, last⟩ := exists_kept (s.dropWhile isBlank)
  have first : ∀ c ∈ (s.dropWhile isBlank).head?, isBlank c = false := by
    intro c head
    have solid := List.head?_dropWhile_not isBlank s
    simp only [Option.mem_def] at head
    simpa [head] using solid
  have inner : (s.dropWhile isBlank).dropWhile isBlank = s.dropWhile isBlank := by
    cases within : s.dropWhile isBlank with
    | nil => rfl
    | cons c rest =>
      have solid : isBlank c = false := first c (by rw [within]; rfl)
      rw [List.dropWhile_cons_of_neg (by simp [solid])]
  have whole : trim s = trim kept := by
    calc trim s = trim (s.dropWhile isBlank) := by simp only [trim, strip, inner]
      _ = trim kept := by rw [same, trim_append_blanks kept all]
  have keptTight : Tight kept := by
    refine ⟨?_, last⟩
    intro c head
    cases kept with
    | nil => cases head
    | cons d rest => exact first c (by rw [same]; exact head)
  rw [whole, trim_tight keptTight]
  exact keptTight

theorem isBlank_nameByte {c : UInt8} (name : isNameByte c = true) : isBlank c = false := by
  rw [← Bool.not_eq_true]
  intro blank
  simp only [isBlank, Bool.or_eq_true, beq_iff_eq] at blank
  rcases blank with ((rfl | rfl) | rfl) | rfl
  · exact absurd name (by decide)
  · exact absurd name (by decide)
  · exact absurd name (by decide)
  · exact absurd name (by decide)

/-- Trimming a line takes blanks from its value only. -/
theorem trim_text (line : ContentLine) :
    ∃ kept, trim line.text = line.head ++ byte ':' :: kept ∧ trim kept = trim line.value := by
  obtain ⟨kept, blanks, same, all, last⟩ := exists_kept line.value
  refine ⟨kept, ?_, by rw [same, trim_append_blanks kept all]⟩
  have tight : Tight (line.head ++ byte ':' :: kept) := by
    apply Tight.mk
    · intro c first
      obtain ⟨d, rest, name⟩ := List.exists_cons_of_ne_nil line.named.filled
      have starts : (line.head ++ byte ':' :: kept).head? = some d := by
        rw [ContentLine.head, name, List.cons_append, List.cons_append, List.head?_cons]
      have same : d = c := by simpa [starts] using first
      exact isBlank_nameByte (line.named.bytes c (name ▸ same ▸ List.mem_cons_self))
    · intro c final
      rw [List.getLast?_append_cons] at final
      cases kept with
      | nil =>
        cases final
        decide
      | cons d rest => exact last c final
  have whole : line.text = (line.head ++ byte ':' :: kept) ++ blanks := by
    rw [ContentLine.text, same, List.append_assoc, List.cons_append]
  rw [whole, trim_append_blanks _ all, trim_tight tight]

/-! ## Lines of a VALARM -/

/-- The value of a property as `parse_alarm` reads it. -/
def reading (line : ContentLine) : Text := unescape (trim line.value)

def AlarmText.set (al : AlarmText) (key value : Text) : AlarmText :=
  if key = text "TRIGGER" then { al with triggerStr := value }
  else if key = text "ACTION" then { al with action := value }
  else if key = text "DESCRIPTION" then { al with description := value }
  else al

theorem line_trimmed (al : AlarmText) (line : Text) : al.line (trim line) = al.line line := by
  rw [AlarmText.line, AlarmText.line, trim_tight (tight_trim line)]

theorem line_plain (al : AlarmText) {line : ContentLine} (plain : line.params = []) :
    al.line line.text = AlarmText.set al (toUpper line.name) (reading line) := by
  obtain ⟨kept, trimmed, value⟩ := trim_text line
  have head : line.head = line.name := by rw [ContentLine.head, plain, List.flatMap_nil, List.append_nil]
  have colon : byte ':' ∉ line.name := line.named.not_mem (by decide)
  have name : trim line.name = line.name := by
    apply trim_tight
    exact ⟨fun c first => isBlank_nameByte (line.named.bytes c (List.mem_of_mem_head? first)),
      fun c last => isBlank_nameByte (line.named.bytes c (List.mem_of_getLast? last))⟩
  have behind : (line.name ++ byte ':' :: kept).drop (line.name.length + 1) = kept := by
    rw [← List.drop_drop, List.drop_left]
    rfl
  simp only [AlarmText.line, trimmed, head, idxOf?_append colon, List.take_left, name, behind, value]
  rfl

theorem mem_trim {c : UInt8} (solid : isBlank c = false) {s : Text} (inside : c ∈ s) : c ∈ trim s := by
  have front {t : Text} (within : c ∈ t) : c ∈ t.dropWhile isBlank := by
    rw [← List.takeWhile_append_dropWhile (p := isBlank) (l := t)] at within
    rcases List.mem_append.mp within with blank | kept
    · exact absurd (List.mem_takeWhile_imp blank) (by simp [solid])
    · exact kept
  exact List.mem_reverse.mpr (front (List.mem_reverse.mpr (front inside)))

theorem line_params (al : AlarmText) {line : ContentLine} (given : line.params ≠ []) :
    al.line line.text = al := by
  obtain ⟨kept, trimmed, _⟩ := trim_text line
  obtain ⟨first, more, params⟩ := List.exists_cons_of_ne_nil given
  -- the key reaches to the first colon, which stands behind the semicolon of the parameters
  have whole : trim line.text = (line.name ++ [byte ';']) ++
      (first.text ++ more.flatMap (fun p => byte ';' :: p.text) ++ byte ':' :: kept) := by
    rw [trimmed, ContentLine.head, params]
    simp
  have noColon : byte ':' ∉ line.name ++ [byte ';'] := by
    rw [List.mem_append, not_or]
    exact ⟨line.named.not_mem (by decide), by decide⟩
  simp only [AlarmText.line]
  cases colon : (trim line.text).idxOf? (byte ':') with
  | none => rfl
  | some colonPos =>
    obtain ⟨inside, here, _⟩ := List.idxOf?_eq_some_iff.mp colon
    have behind : (line.name ++ [byte ';']).length ≤ colonPos := by
      by_contra before
      have within : (trim line.text)[colonPos] ∈ line.name ++ [byte ';'] := by
        simp only [whole]
        rw [List.getElem_append_left (by omega)]
        exact List.getElem_mem _
      exact noColon (here ▸ within)
    have semicolon : byte ';' ∈ (trim line.text).take colonPos := by
      rw [whole, List.take_append]
      apply List.mem_append_left
      rw [List.take_of_length_le behind]
      simp
    have key : byte ';' ∈ toUpper (trim ((trim line.text).take colonPos)) :=
      List.mem_map.mpr ⟨byte ';', mem_trim (by decide) semicolon, by decide⟩
    have other (name : String) (plain : byte ';' ∉ text name) :
        toUpper (trim ((trim line.text).take colonPos)) ≠ text name := fun same => plain (same ▸ key)
    simp only [if_neg (other "TRIGGER" (by decide)), if_neg (other "ACTION" (by decide)),
      if_neg (other "DESCRIPTION" (by decide))]

/-! ## Triggers -/

/-- What a duration is spelled with. -/
def Spelled (s : Text) : Prop := ∀ c ∈ s, isDigit c = true ∨ c ∈ text "+-PWDTHMS"

theorem spelled_append {s t : Text} (first : Spelled s) (second : Spelled t) : Spelled (s ++ t) :=
  List.forall_mem_append.mpr ⟨first, second⟩

theorem spelled_cons {c : UInt8} {s : Text} (letter : c ∈ text "+-PWDTHMS") (rest : Spelled s) :
    Spelled (c :: s) := List.forall_mem_cons.mpr ⟨.inr letter, rest⟩

theorem spelled_nil : Spelled [] := List.forall_mem_nil _

theorem spelled_of (n : Number) {unit : Char} (letter : byte unit ∈ text "+-PWDTHMS") : Spelled (n.of unit) :=
  spelled_append (fun c inside => .inl (n.all c inside)) (spelled_cons letter spelled_nil)

theorem spelled_minutePart (part : MinutePart) : Spelled part.text := by
  apply spelled_append (spelled_of part.minutes (by decide))
  cases part.seconds with
  | none => exact spelled_nil
  | some s => exact spelled_of s (by decide)

theorem spelled_timePart (part : TimePart) : Spelled part.text := by
  cases part with
  | hours h rest =>
    apply spelled_append (spelled_of h (by decide))
    cases rest with
    | none => exact spelled_nil
    | some part => exact spelled_minutePart part
  | minutes part => exact spelled_minutePart part
  | seconds s => exact spelled_of s (by decide)

theorem spelled_span (s : Span) : Spelled s.text := by
  cases s with
  | weeks w => exact spelled_of w (by decide)
  | days d part =>
    apply spelled_append (spelled_of d (by decide))
    cases part with
    | none => exact spelled_nil
    | some part => exact spelled_cons (by decide) (spelled_timePart part)
  | time part => exact spelled_cons (by decide) (spelled_timePart part)

theorem spelled_duration (d : Duration) : Spelled d.text := by
  apply spelled_append
  · cases d.sign with
    | none => exact spelled_nil
    | plus => exact spelled_cons (by decide) spelled_nil
    | minus => exact spelled_cons (by decide) spelled_nil
  · exact spelled_cons (by decide) (spelled_span d.span)

theorem spelled_solid {s : Text} (spelled : Spelled s) {c : UInt8} (inside : c ∈ s) :
    isBlank c = false ∧ c ≠ byte '\\' := by
  rcases spelled c inside with digit | letter
  · rw [isDigit_iff] at digit
    apply And.intro
    · rw [← Bool.not_eq_true]
      intro blank
      simp only [isBlank, Bool.or_eq_true, beq_iff_eq] at blank
      rcases blank with ((rfl | rfl) | rfl) | rfl
      · exact absurd digit (by decide)
      · exact absurd digit (by decide)
      · exact absurd digit (by decide)
      · exact absurd digit (by decide)
    · intro same
      exact absurd (same ▸ digit) (by decide)
  · have solid : ∀ c ∈ text "+-PWDTHMS", isBlank c = false ∧ c ≠ byte '\\' := by decide +kernel
    exact solid c letter

theorem unescape_spelled {s : Text} (spelled : Spelled s) : unescape s = s := by
  induction s with
  | nil => rfl
  | cons c rest ih =>
    have plain : c ≠ byte '\\' := (spelled_solid spelled List.mem_cons_self).2
    rw [unescape_plain plain, ih (fun d inside => spelled d (List.mem_cons_of_mem c inside))]

theorem trim_spelled {s : Text} (spelled : Spelled s) : trim s = s := by
  apply trim_tight
  exact ⟨fun c first => (spelled_solid spelled (List.mem_of_mem_head? first)).1,
    fun c last => (spelled_solid spelled (List.mem_of_getLast? last)).1⟩

theorem reading_duration {line : ContentLine} {d : Duration} (valued : line.value = d.text) :
    reading line = d.text := by
  rw [reading, valued, trim_spelled (spelled_duration d), unescape_spelled (spelled_duration d)]

theorem duration_ne_nil (d : Duration) : d.text ≠ [] := by
  rw [Duration.text]
  exact List.append_ne_nil_of_right_ne_nil _ (List.cons_ne_nil _ _)

/-- What is made of a trigger: a plus sign hides the P, and the minutes stay unset. -/
theorem parseAlarm_duration {lines : List Text} {d : Duration}
    (trigger : (alarmText lines).triggerStr = d.text) (small : (d.span.readMinutes : Int) ≤ intMax) :
    parseAlarm lines = .ok [{
      triggerMinutes := if d.sign = .plus then none else some (d.span.readMinutes : Int)
      action := (alarmText lines).action
      description := (alarmText lines).description }] := by
  simp only [parseAlarm, trigger, if_neg (duration_ne_nil d)]
  cases sign : d.sign with
  | plus =>
    have unsigned : unsignedTrigger d.text = byte '+' :: byte 'P' :: d.span.text := by
      rw [Duration.text, sign]
      rfl
    have hidden : ((byte '+' :: byte 'P' :: d.span.text : Text)).head? ≠ some (byte 'P') := by
      rw [List.head?_cons]
      decide
    rw [unsigned, if_neg hidden]
    rfl
  | none =>
    have unsigned : unsignedTrigger d.text = byte 'P' :: d.span.text := by
      rw [Duration.text, sign]
      rfl
    rw [unsigned, if_pos List.head?_cons, List.tail_cons, durationMinutes_text small]
    rfl
  | minus =>
    have unsigned : unsignedTrigger d.text = byte 'P' :: d.span.text := by
      rw [Duration.text, sign]
      rfl
    rw [unsigned, if_pos List.head?_cons, List.tail_cons, durationMinutes_text small]
    rfl

/-- The name of a line as `parse_alarm` reads it. -/
def alarmKey (line : Text) : Option Text :=
  ((trim line).idxOf? (byte ':')).map (fun colonPos => toUpper (trim ((trim line).take colonPos)))

theorem line_other (al : AlarmText) {line : Text} (other : alarmKey line ≠ some (text "TRIGGER")) :
    (al.line line).triggerStr = al.triggerStr := by
  simp only [AlarmText.line]
  cases colon : (trim line).idxOf? (byte ':') with
  | none => rfl
  | some colonPos =>
    simp only [alarmKey, colon, Option.map_some, ne_eq, Option.some.injEq] at other
    simp only [if_neg other]
    split_ifs
    · rfl
    · rfl
    · rfl

theorem foldl_others (al : AlarmText) {lines : List Text}
    (others : ∀ line ∈ lines, alarmKey line ≠ some (text "TRIGGER")) :
    (lines.foldl AlarmText.line al).triggerStr = al.triggerStr := by
  induction lines generalizing al with
  | nil => rfl
  | cons line rest ih =>
    obtain ⟨first, later⟩ := List.forall_mem_cons.mp others
    rw [List.foldl_cons, ih (al.line line) later, line_other al first]

theorem alarmText_trigger {before after : List Text} {line : ContentLine}
    (named : toUpper line.name = text "TRIGGER")
    (others : ∀ other ∈ before ++ after, alarmKey other ≠ some (text "TRIGGER")) :
    (alarmText (before ++ line.text :: after)).triggerStr = if line.params = [] then reading line else [] := by
  obtain ⟨front, back⟩ := List.forall_mem_append.mp others
  rw [alarmText, List.foldl_append, List.foldl_cons, foldl_others _ back]
  split_ifs with plain
  · rw [line_plain _ plain, AlarmText.set, if_pos named]
  · rw [line_params _ plain, foldl_others _ front]

/-- The one alarm of a VALARM has the whole minutes of its trigger exactly where this is written
without parameters and without a plus sign, not in weeks, and with less than sixty seconds. -/
theorem parseAlarm_trigger_iff {before after : List Text} {line : ContentLine} {d : Duration}
    (named : toUpper line.name = text "TRIGGER") (valued : line.value = d.text)
    (others : ∀ other ∈ before ++ after, alarmKey other ≠ some (text "TRIGGER"))
    (fits : (d.totalMinutes : Int) ≤ intMax) :
    (∃ (alarm : Alarm) (minutes : Int), parseAlarm (before ++ line.text :: after) = .ok [alarm] ∧
        alarm.triggerMinutes = some minutes ∧ minutes.natAbs = d.totalMinutes) ↔
      line.params = [] ∧ d.sign ≠ .plus ∧ d.span.ReadRight := by
  have small : (d.span.readMinutes : Int) ≤ intMax :=
    (Int.ofNat_le.mpr (readMinutes_le d.span)).trans fits
  have trigger := alarmText_trigger named others
  by_cases plain : line.params = []
  · rw [if_pos plain, reading_duration valued] at trigger
    rw [parseAlarm_duration trigger small]
    by_cases plus : d.sign = .plus
    · simp [plus]
    · simp [plain, plus, ← readMinutes_iff, Duration.totalMinutes]
  · rw [if_neg plain] at trigger
    simp [parseAlarm, trigger, plain, pure, Except.pure]

def number (value : Fin 100) : Number where
  digits := (Nat.toDigits 10 value).map Char.toUInt8
  filled := by simp [Nat.toDigits_ne_nil]
  all _ member := digit_of_mem_toDigits member

def triggerLine (d : Duration) : ContentLine where
  name := text "TRIGGER"
  named := ⟨by decide +kernel, by decide +kernel⟩
  value := d.text

/-- -PT15M -/
def quarter : Duration where
  sign := .minus
  span := .time (.minutes { minutes := number 15 })

/-- -PT30M -/
def halfHour : Duration where
  sign := .minus
  span := .time (.minutes { minutes := number 30 })

/-- -P2W -/
def fortnight : Duration where
  sign := .minus
  span := .weeks (number 2)

theorem parseAlarm_trigger_iff_quarter :
    (∃ (alarm : Alarm) (minutes : Int),
        parseAlarm ([text "ACTION:DISPLAY"] ++ (triggerLine quarter).text :: []) = .ok [alarm] ∧
        alarm.triggerMinutes = some minutes ∧ minutes.natAbs = quarter.totalMinutes) ↔
      (triggerLine quarter).params = [] ∧ quarter.sign ≠ .plus ∧ quarter.span.ReadRight :=
  parseAlarm_trigger_iff rfl rfl (by decide +kernel) (by decide +kernel)

/-- Two weeks before the event are read as two minutes. -/
theorem weeks_read_as_minutes :
    ¬∀ (before after : List Text) (line : ContentLine) (d : Duration),
      toUpper line.name = text "TRIGGER" → line.value = d.text →
      (∀ other ∈ before ++ after, alarmKey other ≠ some (text "TRIGGER")) →
      (d.totalMinutes : Int) ≤ intMax →
      ∃ (alarm : Alarm) (minutes : Int), parseAlarm (before ++ line.text :: after) = .ok [alarm] ∧
        alarm.triggerMinutes = some minutes ∧ minutes.natAbs = d.totalMinutes := by
  intro always
  obtain ⟨alarm, minutes, parsed, trigger, same⟩ :=
    always [] [] (triggerLine fortnight) fortnight rfl rfl (by decide) (by decide +kernel)
  have read : parseAlarm ([] ++ (triggerLine fortnight).text :: []) =
      .ok [{ triggerMinutes := some 2, action := text "DISPLAY" }] := by decide +kernel
  rw [read] at parsed
  cases parsed
  cases trigger
  exact absurd same (by decide +kernel)

end DivoomDev.Ics.Alarms
