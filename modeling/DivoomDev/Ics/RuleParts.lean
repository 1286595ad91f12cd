import DivoomDev.Library.Separated
import DivoomDev.Ics.Durations
import DivoomDev.Ics.Instants

/-! RRULEs made of parts with semicolons between them. The parser searches the whole text once
for each kind of part; here it is shown to read the parts one by one, in whatever order. -/

namespace DivoomDev.Ics.RuleParts
open DivoomDev.Library DivoomDev.Library.Bytes DivoomDev.Library.Separated TextUtils Timezone Models Datetime
  Recurrence Durations Instants

/-! ## The parts -/

/-- So many digits. -/
structure Digits (size : Nat) where
  bytes : Text
  length : bytes.length = size
  all : ∀ c ∈ bytes, isDigit c = true

def Digits.value {size : Nat} (d : Digits size) : Int := digitsValue d.bytes

/-- YYYYMMDDTHHMMSS. -/
structure Stamp where
  year : Digits 4
  month : Digits 2
  day : Digits 2
  hour : Digits 2
  minute : Digits 2
  second : Digits 2

namespace Stamp

def date (s : Stamp) : Text := s.year.bytes ++ s.month.bytes ++ s.day.bytes

def clock (s : Stamp) : Text := s.hour.bytes ++ s.minute.bytes ++ s.second.bytes

def text (s : Stamp) : Text := s.date ++ byte 'T' :: s.clock

def tm (s : Stamp) : Tm where
  tmYear := s.year.value - 1900
  tmMon := s.month.value - 1
  tmMday := s.day.value
  tmHour := s.hour.value
  tmMin := s.minute.value
  tmSec := s.second.value

end Stamp

inductive Weekday where
  | monday
  | tuesday
  | wednesday
  | thursday
  | friday
  | saturday
  | sunday
  deriving DecidableEq, Repr

def Weekday.name : Weekday → String
  | monday => "MO"
  | tuesday => "TU"
  | wednesday => "WE"
  | thursday => "TH"
  | friday => "FR"
  | saturday => "SA"
  | sunday => "SU"

def Weekday.number : Weekday → Nat
  | monday => 1
  | tuesday => 2
  | wednesday => 3
  | thursday => 4
  | friday => 5
  | saturday => 6
  | sunday => 7

def freqName : Freq → String
  | .yearly => "YEARLY"
  | .monthly => "MONTHLY"
  | .weekly => "WEEKLY"
  | .daily => "DAILY"

/-- The literals that the parser looks for. -/
def literals : List String := ["FREQ=", "INTERVAL=", "UNTIL=", "BYDAY="]

/-- One part of an RRULE. Parts such as WKST, which the parser does not know, hold none of its
literals. -/
inductive RulePart where
  | freq (freq : Freq)
  | interval (n : Number) (small : (n.value : Int) ≤ intMax)
  | until_ (stamp : Stamp) (utc : Bool)
  | byday (first : Weekday) (more : List Weekday)
  | other (s : Text) (whole : byte ';' ∉ s) (foreign : ∀ literal ∈ literals, find (text literal) s = none)

namespace RulePart

/-- The names of days with commas between them. -/
def daysText (days : List Weekday) : Text :=
  [byte ','].intercalate (days.map (fun day => Bytes.text day.name))

def text : RulePart → Text
  | freq f => Bytes.text "FREQ=" ++ Bytes.text (freqName f)
  | interval n _ => Bytes.text "INTERVAL=" ++ n.digits
  | until_ stamp utc => Bytes.text "UNTIL=" ++ (stamp.text ++ if utc then [byte 'Z'] else [])
  | byday first more => Bytes.text "BYDAY=" ++ daysText (first :: more)
  | other s _ _ => s

/-- The name in front of the equals sign. -/
def name : RulePart → Text
  | freq _ => Bytes.text "FREQ"
  | interval _ _ => Bytes.text "INTERVAL"
  | until_ _ _ => Bytes.text "UNTIL"
  | byday _ _ => Bytes.text "BYDAY"
  | other s _ _ => s.takeWhile (· != byte '=')

def freq? : RulePart → Option Freq
  | freq f => some f
  | _ => none

def interval? : RulePart → Option {n : Number // (n.value : Int) ≤ intMax}
  | interval n small => some ⟨n, small⟩
  | _ => none

def until? : RulePart → Option Stamp
  | until_ stamp _ => some stamp
  | _ => none

def byday? : RulePart → Option (List Weekday)
  | byday first more => some (first :: more)
  | _ => none

end RulePart

def ruleText (parts : List RulePart) : Text := [byte ';'].intercalate (parts.map RulePart.text)

/-- The rule that the parts give one by one. -/
def readOff (zone : SystemZone) (parts : List RulePart) : RruleData where
  freq := (parts.findSome? RulePart.freq?).getD .daily
  interval := (parts.findSome? RulePart.interval?).elim 1 (fun n => n.val.value)
  until_ := (parts.findSome? RulePart.until?).elim 0 (fun stamp => pointOf (zone.mkgmtime stamp.tm))
  byday := (parts.findSome? RulePart.byday?).elim ∅ (fun days =>
    days.foldl (fun set day => set.insert day.number) ∅)

/-! ## The patterns stop at a semicolon -/

theorem takeWhile_separated {class' : UInt8 → Bool} {separator : UInt8} (ends : class' separator = false)
    (s rest : Text) : (s ++ separator :: rest).takeWhile class' = s.takeWhile class' := by
  rw [List.takeWhile_append, List.takeWhile_cons_of_neg (by simp [ends])]
  split_ifs with whole
  · rw [List.append_nil]
    exact ((List.takeWhile_prefix class').eq_of_length whole).symm
  · rfl

theorem some1_stops {class' : UInt8 → Bool} {separator : UInt8} (ends : class' separator = false) :
    Stops separator (some1 class') := by
  intro s rest
  rw [some1, some1, takeWhile_separated ends]

theorem behind_stops {α : Type} {literal : String} {capture : Text → Option α} {separator : UInt8}
    (absent : separator ∉ text literal) (stops : Stops separator capture) :
    Stops separator (behind literal capture) := by
  intro s rest
  rw [behind, behind, isPrefixOf_separated absent]
  split_ifs with literalFirst
  · have inside := (List.isPrefixOf_iff_prefix.mp literalFirst).length_le
    rw [List.drop_append_of_le_length inside, stops]
  · rfl

theorem freqRe_stops : Stops (byte ';') freqRe := by
  apply behind_stops (by decide)
  intro s rest
  have same (name : String) (absent : byte ';' ∉ text name) :
      (text name).isPrefixOf (s ++ byte ';' :: rest) = (text name).isPrefixOf s :=
    isPrefixOf_separated absent s rest
  simp only [freqNames, List.find?_cons, same "YEARLY" (by decide), same "MONTHLY" (by decide),
    same "WEEKLY" (by decide), same "DAILY" (by decide), List.find?_nil]

theorem intervalRe_stops : Stops (byte ';') intervalRe := behind_stops (by decide) (some1_stops (by decide))

theorem bydayRe_stops : Stops (byte ';') bydayRe := behind_stops (by decide) (some1_stops (by decide))

theorem untilRe_stops : Stops (byte ';') untilRe := by
  apply behind_stops (by decide)
  intro s rest
  simp only [some1_stops (show isDigit (byte ';') = false by decide) s rest]
  cases found : some1 isDigit s with
  | none => rfl
  | some date =>
    have date' : date = s.takeWhile isDigit := by
      unfold some1 at found
      split_ifs at found
      exact (Option.some.inj found).symm
    have inside : date.length ≤ s.length := date' ▸ (List.takeWhile_prefix isDigit).length_le
    simp only [Option.bind_eq_bind, Option.bind_some, List.drop_append_of_le_length inside]
    cases s.drop date.length with
    | nil =>
      have semicolon : ¬byte ';' = byte 'T' := by decide
      simp [semicolon]
    | cons c tail =>
      simp only [List.cons_append, List.head?_cons, List.tail_cons,
        some1_stops (show isDigit (byte ';') = false by decide) tail rest]
      rfl

/-! ## Searching one part -/

theorem search_hit {α : Type} {matchAt : Text → Option α} {s : Text} {found : α} (here : matchAt s = some found) :
    search matchAt s = some found := by
  cases s with
  | nil => exact here
  | cons c rest => rw [search, here, Option.some_or]

/-- A byte of the literal that the text lacks keeps the pattern from matching. -/
theorem search_absent {α : Type} {literal : String} {capture : Text → Option α} {c : UInt8} {s : Text}
    (needed : c ∈ text literal) (absent : c ∉ s) : search (behind literal capture) s = none := by
  have notHere {t : Text} (within : c ∉ t) : behind literal capture t = none := by
    apply if_neg
    intro literalFirst
    exact within ((List.isPrefixOf_iff_prefix.mp literalFirst).subset needed)
  induction s with
  | nil => exact notHere absent
  | cons d rest ih =>
    rw [search, notHere absent, Option.none_or]
    exact ih (List.not_mem_of_not_mem_cons absent)

theorem search_foreign {α : Type} {literal : String} {capture : Text → Option α} {s : Text}
    (foreign : find (text literal) s = none) (filled : text literal ≠ []) :
    search (behind literal capture) s = none := by
  induction s with
  | nil =>
    apply if_neg
    intro literalFirst
    exact filled (List.prefix_nil.mp (List.isPrefixOf_iff_prefix.mp literalFirst))
  | cons c rest ih =>
    rw [find] at foreign
    split_ifs at foreign with here
    have silent : behind literal capture (c :: rest) = none := if_neg here
    rw [search, silent, Option.none_or]
    exact ih (Option.map_eq_none_iff.mp foreign)

theorem behind_literal {α : Type} (literal : String) (capture : Text → Option α) (rest : Text) :
    behind literal capture (text literal ++ rest) = capture rest := by
  have literalFirst : (text literal).isPrefixOf (text literal ++ rest) = true := by
    simp [List.isPrefixOf_iff_prefix]
  rw [behind, if_pos literalFirst, List.drop_left]

theorem some1_all {class' : UInt8 → Bool} {s : Text} (filled : s ≠ []) (all : ∀ c ∈ s, class' c = true) :
    some1 class' s = some s := by
  have whole : s.takeWhile class' = s := List.takeWhile_eq_self_iff.mpr all
  rw [some1, whole, if_neg filled]

namespace Stamp

theorem date_digits (s : Stamp) : ∀ c ∈ s.date, isDigit c = true := by
  simp only [date, List.forall_mem_append]
  exact ⟨⟨s.year.all, s.month.all⟩, s.day.all⟩

theorem clock_digits (s : Stamp) : ∀ c ∈ s.clock, isDigit c = true := by
  simp only [clock, List.forall_mem_append]
  exact ⟨⟨s.hour.all, s.minute.all⟩, s.second.all⟩

theorem date_length (s : Stamp) : s.date.length = 8 := by
  simp only [date, List.length_append, s.year.length, s.month.length, s.day.length]

theorem clock_length (s : Stamp) : s.clock.length = 6 := by
  simp only [clock, List.length_append, s.hour.length, s.minute.length, s.second.length]

end Stamp

namespace RulePart

def freqLetters : Text := Bytes.text "FREQ=DAILYMONTHWK"
def intervalLetters : Text := Bytes.text "INTERVAL="
def untilLetters : Text := Bytes.text "UNTIL=TZ"
def bydayLetters : Text := Bytes.text "BYDAY=,MOTUWEHFRSA"

/-- The bytes other than digits in a part that the parser knows. -/
def letters : RulePart → Text
  | freq _ => freqLetters
  | interval _ _ => intervalLetters
  | until_ _ _ => untilLetters
  | byday _ _ => bydayLetters
  | other s _ _ => s

theorem mem_daysText {days : List Weekday} {c : UInt8} (inside : c ∈ daysText days) :
    c ∈ bydayLetters ∧ isBydayByte c = true := by
  by_cases comma : c = byte ','
  · rw [comma]
    decide +kernel
  · obtain ⟨name, member, within⟩ := (mem_intercalate comma _).mp inside
    obtain ⟨day, _, rfl⟩ := List.mem_map.mp member
    have letter : ∀ c ∈ Bytes.text day.name, c ∈ bydayLetters ∧ isBydayByte c = true := by
      cases day <;> decide +kernel
    exact letter c within

theorem mem_text {p : RulePart} {c : UInt8} (inside : c ∈ p.text) : isDigit c = true ∨ c ∈ p.letters := by
  cases p with
  | freq f =>
    have letter : ∀ c ∈ (RulePart.freq f).text, c ∈ freqLetters := by
      cases f <;> decide +kernel
    exact .inr (letter c inside)
  | interval n small =>
    rcases List.mem_append.mp inside with literal | digit
    · exact .inr literal
    · exact .inl (n.all c digit)
  | until_ stamp utc =>
    have literalLetters : ∀ c ∈ Bytes.text "UNTIL=", c ∈ untilLetters := by decide +kernel
    rcases List.mem_append.mp inside with literal | value
    · exact .inr (literalLetters c literal)
    · rcases List.mem_append.mp value with stamped | zulu
      · rcases List.mem_append.mp stamped with date | behindDate
        · exact .inl (stamp.date_digits c date)
        · rcases List.mem_cons.mp behindDate with rfl | clock
          · exact .inr (show byte 'T' ∈ untilLetters by decide)
          · exact .inl (stamp.clock_digits c clock)
      · split_ifs at zulu
        · obtain rfl := List.mem_singleton.mp zulu
          exact .inr (show byte 'Z' ∈ untilLetters by decide)
        · cases zulu
  | byday first more =>
    have literalLetters : ∀ c ∈ Bytes.text "BYDAY=", c ∈ bydayLetters := by decide +kernel
    rcases List.mem_append.mp inside with literal | days
    · exact .inr (literalLetters c literal)
    · exact .inr (mem_daysText days).1
  | other s whole foreign => exact .inr inside

/-- A literal with a letter that the part lacks is not found in it. -/
theorem search_silent {α : Type} {literal : String} {capture : Text → Option α} {p : RulePart} (c : UInt8)
    (needed : c ∈ Bytes.text literal) (letter : isDigit c = false) (absent : c ∉ p.letters) :
    search (behind literal capture) p.text = none := by
  apply search_absent needed
  intro inside
  rcases mem_text inside with digit | known
  · exact absurd digit (Bool.eq_false_iff.mp letter)
  · exact absent known

theorem search_freqRe (p : RulePart) : search freqRe p.text = p.freq? := by
  cases p with
  | freq f => cases f <;> decide +kernel
  | interval n small => exact search_silent (byte 'Q') (by decide) (by decide) (show byte 'Q' ∉ intervalLetters by decide)
  | until_ stamp utc => exact search_silent (byte 'Q') (by decide) (by decide) (show byte 'Q' ∉ untilLetters by decide)
  | byday first more => exact search_silent (byte 'Q') (by decide) (by decide) (show byte 'Q' ∉ bydayLetters by decide)
  | other s whole foreign => exact search_foreign (foreign "FREQ=" (by decide)) (by decide)

theorem search_intervalRe (p : RulePart) : search intervalRe p.text = p.interval?.map (fun n => n.val.digits) := by
  cases p with
  | freq f => exact search_silent (byte 'V') (by decide) (by decide) (show byte 'V' ∉ freqLetters by decide)
  | interval n small =>
    apply search_hit
    rw [RulePart.text, intervalRe, behind_literal]
    exact some1_all n.filled n.all
  | until_ stamp utc => exact search_silent (byte 'V') (by decide) (by decide) (show byte 'V' ∉ untilLetters by decide)
  | byday first more => exact search_silent (byte 'V') (by decide) (by decide) (show byte 'V' ∉ bydayLetters by decide)
  | other s whole foreign => exact search_foreign (foreign "INTERVAL=" (by decide)) (by decide)

theorem untilRe_text (stamp : Stamp) (utc : Bool) :
    untilRe (RulePart.until_ stamp utc).text = some stamp.text := by
  have dateFilled : stamp.date ≠ [] := List.ne_nil_of_length_eq_add_one stamp.date_length
  have clockFilled : stamp.clock ≠ [] := List.ne_nil_of_length_eq_add_one stamp.clock_length
  have date (rest : Text) : some1 isDigit (stamp.date ++ byte 'T' :: rest) = some stamp.date := by
    rw [some1_stops (show isDigit (byte 'T') = false by decide)]
    exact some1_all dateFilled stamp.date_digits
  have clock : some1 isDigit (stamp.clock ++ if utc then [byte 'Z'] else []) = some stamp.clock := by
    split_ifs
    · rw [some1_stops (show isDigit (byte 'Z') = false by decide)]
      exact some1_all clockFilled stamp.clock_digits
    · rw [List.append_nil]
      exact some1_all clockFilled stamp.clock_digits
  rw [RulePart.text, untilRe, behind_literal, Stamp.text, List.append_assoc, List.cons_append]
  simp [date, clock]

theorem search_untilRe (p : RulePart) : search untilRe p.text = p.until?.map Stamp.text := by
  cases p with
  | freq f => exact search_silent (byte 'U') (by decide) (by decide) (show byte 'U' ∉ freqLetters by decide)
  | interval n small => exact search_silent (byte 'U') (by decide) (by decide) (show byte 'U' ∉ intervalLetters by decide)
  | until_ stamp utc => exact search_hit (untilRe_text stamp utc)
  | byday first more => exact search_silent (byte 'N') (by decide) (by decide) (show byte 'N' ∉ bydayLetters by decide)
  | other s whole foreign => exact search_foreign (foreign "UNTIL=" (by decide)) (by decide)

theorem search_bydayRe (p : RulePart) : search bydayRe p.text = p.byday?.map daysText := by
  cases p with
  | freq f => exact search_silent (byte 'B') (by decide) (by decide) (show byte 'B' ∉ freqLetters by decide)
  | interval n small => exact search_silent (byte 'B') (by decide) (by decide) (show byte 'B' ∉ intervalLetters by decide)
  | until_ stamp utc => exact search_silent (byte 'B') (by decide) (by decide) (show byte 'B' ∉ untilLetters by decide)
  | byday first more =>
    apply search_hit
    have filled : daysText (first :: more) ≠ [] := by
      have name : Bytes.text first.name ≠ [] := by cases first <;> decide
      rw [daysText, List.map_cons, intercalate_cons]
      exact List.append_ne_nil_of_left_ne_nil name _
    rw [RulePart.text, bydayRe, behind_literal]
    exact some1_all filled (fun c inside => (mem_daysText inside).2)
  | other s whole foreign => exact search_foreign (foreign "BYDAY=" (by decide)) (by decide)

end RulePart

/-! ## Reading the parts -/

theorem piece_append (front part back : Text) :
    piece (front ++ (part ++ back)) front.length part.length = part := by
  rw [piece, List.drop_left, List.take_left]

theorem digitsValue_lt {s : Text} (all : ∀ c ∈ s, isDigit c = true) : digitsValue s < 10 ^ s.length := by
  induction s using List.reverseRecOn with
  | nil => decide
  | append_singleton front c ih =>
    have digit := (isDigit_iff c).mp (all c (by simp))
    have before := ih (fun d inside => all d (List.mem_append_left _ inside))
    have value : digitsValue (front ++ [c]) = 10 * digitsValue front + (c.toNat - 48) := by
      simp [digitsValue]
    rw [value, List.length_append, List.length_singleton, Nat.pow_succ]
    omega

theorem stoi_bytes {size : Nat} (d : Digits size) (filled : 0 < size) (short : size ≤ 9) :
    stoi d.bytes = .ok d.value := by
  have bound : digitsValue d.bytes < 10 ^ size := by
    have below := digitsValue_lt d.all
    rwa [d.length] at below
  have small : 10 ^ size ≤ 10 ^ 9 := Nat.pow_le_pow_right (by decide) short
  have nonempty : d.bytes ≠ [] := List.ne_nil_of_length_pos (by rw [d.length]; exact filled)
  apply stoi_digits nonempty d.all
  rw [intMax]
  omega

theorem readNumber_bytes {size : Nat} (d : Digits size) (filled : 0 < size) (short : size ≤ 9) {s : Text}
    (front back : Text) (same : s = front ++ (d.bytes ++ back)) :
    readNumber s front.length size = .ok d.value := by
  apply readNumber_piece
  · rw [same, List.length_append]
    exact Nat.le_add_right _ _
  · have part := piece_append front d.bytes back
    rw [d.length, ← same] at part
    rw [part]
    exact stoi_bytes d filled short

theorem readDateTime_stamp (s : Stamp) : readDateTime s.text = .ok s.tm := by
  have digits {size : Nat} (d : Digits size) (filled : 0 < size) (short : size ≤ 9) (start : Nat)
      (front back : Text) (length : front.length = start) (same : s.text = front ++ (d.bytes ++ back)) :
      readNumber s.text start size = .ok d.value :=
    length ▸ readNumber_bytes d filled short front back same
  have lengths : s.year.bytes.length = 4 ∧ s.month.bytes.length = 2 ∧ s.day.bytes.length = 2 ∧
      s.hour.bytes.length = 2 ∧ s.minute.bytes.length = 2 :=
    ⟨s.year.length, s.month.length, s.day.length, s.hour.length, s.minute.length⟩
  have year := digits s.year (by decide) (by decide) 0 [] (s.month.bytes ++ s.day.bytes ++ byte 'T' :: s.clock)
    rfl (by simp [Stamp.text, Stamp.date])
  have month := digits s.month (by decide) (by decide) 4 s.year.bytes (s.day.bytes ++ byte 'T' :: s.clock)
    lengths.1 (by simp [Stamp.text, Stamp.date])
  have day := digits s.day (by decide) (by decide) 6 (s.year.bytes ++ s.month.bytes) (byte 'T' :: s.clock)
    (by simp [lengths]) (by simp [Stamp.text, Stamp.date])
  have hour := digits s.hour (by decide) (by decide) 9 (s.date ++ [byte 'T']) (s.minute.bytes ++ s.second.bytes)
    (by simp [s.date_length]) (by simp [Stamp.text, Stamp.clock])
  have minute := digits s.minute (by decide) (by decide) 11 (s.date ++ byte 'T' :: s.hour.bytes) s.second.bytes
    (by simp [s.date_length, lengths]) (by simp [Stamp.text, Stamp.clock])
  have second := digits s.second (by decide) (by decide) 13
    (s.date ++ byte 'T' :: (s.hour.bytes ++ s.minute.bytes)) [] (by simp [s.date_length, lengths])
    (by simp [Stamp.text, Stamp.clock])
  simp only [readDateTime, readDate, year, month, day, hour, minute, second]
  rfl

theorem readByday_daysText (days : List Weekday) :
    readByday (RulePart.daysText days) = days.foldl (fun set day => set.insert day.number) ∅ := by
  have names : ∀ name ∈ days.map (fun day => text day.name), byte ',' ∉ name ∧ name ≠ [] := by
    intro name member
    obtain ⟨day, _, rfl⟩ := List.mem_map.mp member
    cases day <;> decide
  have lines : getlines (byte ',') (RulePart.daysText days) = days.map (fun day => text day.name) :=
    getlines_intercalate (fun name member => (names name member).1)
      (fun name last => (names name (List.mem_of_getLast? last)).2)
  have known (day : Weekday) :
      dayNames.find? (fun name => toUpper (text day.name) = text name.1) = some (day.name, day.number) := by
    cases day <;> decide +kernel
  rw [readByday, lines, List.foldl_map]
  simp only [known]

section Rule
variable {α : Type} {zone : SystemZone} {parts parts' : List RulePart}

theorem search_ruleText {matchAt : Text → Option α} {f : RulePart → Option α} (stops : Stops (byte ';') matchAt)
    (silent : matchAt [] = none) (each : ∀ p : RulePart, search matchAt p.text = f p) (parts : List RulePart) :
    search matchAt (ruleText parts) = parts.findSome? f := by
  rw [ruleText, search_intercalate stops silent, List.findSome?_map]
  congr 1
  funext p
  exact each p

theorem readInterval_ruleText (parts : List RulePart) :
    readInterval (ruleText parts) = .ok ((parts.findSome? RulePart.interval?).elim 1 (fun n => n.val.value)) := by
  have found := search_ruleText intervalRe_stops (by decide +kernel) RulePart.search_intervalRe parts
  rw [← Function.comp_def, ← List.map_findSome?] at found
  rw [readInterval, found]
  cases parts.findSome? RulePart.interval? with
  | none => rfl
  | some n => exact stoi_digits n.val.filled n.val.all n.property

theorem readUntil_ruleText (parts : List RulePart) :
    readUntil zone (ruleText parts) =
      .ok ((parts.findSome? RulePart.until?).elim 0 (fun stamp => pointOf (zone.mkgmtime stamp.tm))) := by
  have found := search_ruleText untilRe_stops (by decide +kernel) RulePart.search_untilRe parts
  rw [← Function.comp_def, ← List.map_findSome?] at found
  rw [readUntil, found]
  cases parts.findSome? RulePart.until? with
  | none => rfl
  | some stamp =>
    simp only [Option.map_some, readDateTime_stamp]
    rfl

theorem ruleDays_ruleText (parts : List RulePart) :
    ruleDays (ruleText parts) = (parts.findSome? RulePart.byday?).elim ∅ (fun days =>
      days.foldl (fun set day => set.insert day.number) ∅) := by
  have found := search_ruleText bydayRe_stops (by decide +kernel) RulePart.search_bydayRe parts
  rw [← Function.comp_def, ← List.map_findSome?] at found
  rw [ruleDays, found]
  cases parts.findSome? RulePart.byday? with
  | none => rfl
  | some days => exact readByday_daysText days

/-- The empty text is read like one in which no pattern is found. -/
theorem parseRruleData_eq (zone : SystemZone) (rrule : Text) : parseRruleData zone rrule = (do
    let interval ← readInterval rrule
    let until_ ← readUntil zone rrule
    pure { freq := (search freqRe rrule).getD .daily, interval, until_, byday := ruleDays rrule }) := by
  rw [parseRruleData]
  split_ifs with empty
  · subst empty
    rfl
  · rfl

theorem parseRruleData_ruleText (parts : List RulePart) :
    parseRruleData zone (ruleText parts) = .ok (readOff zone parts) := by
  rw [parseRruleData_eq, readInterval_ruleText, readUntil_ruleText, ruleDays_ruleText,
    search_ruleText freqRe_stops (by decide +kernel) RulePart.search_freqRe parts]
  rfl

/-- Parts of one name are one part, where the names are distinct. -/
theorem part_once {f : RulePart → Option α} (name : Text) (distinct : (parts.map RulePart.name).Nodup)
    (named : ∀ p : RulePart, (f p).isSome → p.name = name) :
    ∀ p ∈ parts, ∀ q ∈ parts, (f p).isSome → (f q).isSome → p = q := by
  intro p memberP q memberQ someP someQ
  exact List.inj_on_of_nodup_map distinct memberP memberQ ((named p someP).trans (named q someQ).symm)

theorem readOff_perm (perm : parts.Perm parts') (distinct : (parts.map RulePart.name).Nodup) :
    readOff zone parts = readOff zone parts' := by
  have freq : parts.findSome? RulePart.freq? = parts'.findSome? RulePart.freq? := by
    apply findSome?_perm perm (part_once (text "FREQ") distinct _)
    intro p some
    cases p with
    | freq f => rfl
    | _ => cases some
  have interval : parts.findSome? RulePart.interval? = parts'.findSome? RulePart.interval? := by
    apply findSome?_perm perm (part_once (text "INTERVAL") distinct _)
    intro p some
    cases p with
    | interval n small => rfl
    | _ => cases some
  have until_ : parts.findSome? RulePart.until? = parts'.findSome? RulePart.until? := by
    apply findSome?_perm perm (part_once (text "UNTIL") distinct _)
    intro p some
    cases p with
    | until_ stamp utc => rfl
    | _ => cases some
  have byday : parts.findSome? RulePart.byday? = parts'.findSome? RulePart.byday? := by
    apply findSome?_perm perm (part_once (text "BYDAY") distinct _)
    intro p some
    cases p with
    | byday first more => rfl
    | _ => cases some
  simp only [readOff, freq, interval, until_, byday]

/-- Every order of the parts gives the rule that they give one by one. -/
theorem parseRruleData_perm (zone : SystemZone) (perm : parts.Perm parts')
    (distinct : (parts.map RulePart.name).Nodup) :
    parseRruleData zone (ruleText parts') = .ok (readOff zone parts) := by
  rw [parseRruleData_ruleText, readOff_perm perm distinct]

end Rule

/-- FREQ=WEEKLY;INTERVAL=2;BYDAY=MO,FR;WKST=SU -/
def fortnightParts : List RulePart :=
  [.freq .weekly, .interval ⟨text "2", by decide +kernel, by decide +kernel⟩ (by decide +kernel), .byday .monday [.friday],
    .other (text "WKST=SU") (by decide) (by decide +kernel)]

theorem parseRruleData_perm_reversed :
    parseRruleData (.fixed 0) (ruleText fortnightParts.reverse) = .ok (readOff (.fixed 0) fortnightParts) :=
  parseRruleData_perm (.fixed 0) (List.reverse_perm _).symm (by decide +kernel)

end DivoomDev.Ics.RuleParts
