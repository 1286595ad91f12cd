import DivoomDev.Ics.ContentLines
import DivoomDev.Ics.RuleParts
import DivoomDev.Ics.RoundTrip
import DivoomDev.Ics.Alarms
import DivoomDev.Ics.PropertyOrder
import DivoomDev.Ics.WrittenZones

/-! A writer for every property that the builder reads, and what is read back of each. -/

namespace DivoomDev.Ics.WrittenProperties
open DivoomDev.Library DivoomDev.Library.Bytes DivoomDev.Library.Fallible DivoomDev.Library.Separated TextUtils
  Timezone Models Datetime Recurrence EventBuilder Pipeline Properties Instants Durations ContentLines RuleParts
  RoundTrip Alarms PropertyOrder WrittenZones

/-! ## Values -/

/-- A text that a writer escapes. It may hold line feeds. -/
structure Phrase where
  bytes : Text
  tight : Tight bytes
  noReturn : carriageReturn ∉ bytes

/-- A text on one line, written as it is. -/
structure Token where
  bytes : Text
  tight : Tight bytes
  noReturn : carriageReturn ∉ bytes
  noFeed : lineFeed ∉ bytes

/-- A date-time with four digits for its year. -/
structure Moment where
  time : Gregorian.DateTime
  valid : time.Valid
  year : 0 ≤ time.year ∧ time.year ≤ 9999

namespace Moment

def text (m : Moment) : Text := dateTimeText m.time

/-- The instant that it is in UTC. -/
def instant (m : Moment) : TimePoint := pointOf m.time.seconds

/-- The C library converts it from UTC. -/
def Converts (zone : SystemZone) (m : Moment) : Prop :=
  ∀ isdst, zone.mkgmtime { wallTm m.time with tmIsdst := isdst } = m.time.seconds

theorem mem_text {m : Moment} {c : UInt8} (inside : c ∈ m.text) : isDigit c = true ∨ c = byte 'T' := by
  simp only [text, dateTimeText, twoDigits, List.mem_append, List.mem_cons, List.not_mem_nil, or_false] at inside
  rcases inside with ((((((inside | inside) | inside) | inside) | inside) | inside) | inside) | inside
  case inl.inl.inl.inr => exact .inr inside
  all_goals rcases inside with rfl | rfl <;> exact .inl (digit_isDigit _)

theorem not_mem_text (m : Moment) {c : UInt8} (mark : isDigit c = false) (other : c ≠ byte 'T') : c ∉ m.text := by
  intro inside
  rcases mem_text inside with digit | same
  · exact absurd digit (Bool.eq_false_iff.mp mark)
  · exact other same

theorem solid {m : Moment} {c : UInt8} (inside : c ∈ m.text) : isBlank c = false := by
  rcases mem_text inside with digit | rfl
  · rw [isDigit_iff] at digit
    rw [← Bool.not_eq_true]
    intro blank
    simp only [isBlank, Bool.or_eq_true, beq_iff_eq] at blank
    rcases blank with ((rfl | rfl) | rfl) | rfl <;> revert digit <;> decide
  · decide

end Moment

/-- A time in UTC or in a time zone. -/
structure Timed where
  moment : Moment
  zone : Option ZonePlan := none

namespace Timed

def text (t : Timed) : Text := t.moment.text ++ t.zone.elim [byte 'Z'] (fun _ => [])

def instant (t : Timed) : TimePoint :=
  t.zone.elim t.moment.instant (fun z => pointOf (t.moment.time.seconds - z.hours * 3600))

end Timed

/-- A text written as a parameter. -/
structure ParamText where
  bytes : Text
  plain : ∀ c ∈ bytes, c ∉ [byte '"', byte ';', byte ':', byte ',', byte '\\', lineFeed, carriageReturn]

/-- The parts of a rule, which make up one line. -/
structure RuleLine where
  parts : List RulePart
  tight : Tight (ruleText parts)
  noReturn : carriageReturn ∉ ruleText parts
  noFeed : lineFeed ∉ ruleText parts

/-! ## Properties -/

inductive PhraseField where
  | summary
  | description
  | location
  | categories
  deriving DecidableEq, Repr

inductive TokenField where
  | uid
  | url
  deriving DecidableEq, Repr

inductive SpanField where
  | start
  | end_
  deriving DecidableEq, Repr

inductive TimeField where
  | created
  | lastModified
  | stamp
  deriving DecidableEq, Repr

/-- A property of a VEVENT as a writer has it. Its start and end are written in UTC or in a zone,
the other times in UTC, the instants that EXDATE and RECURRENCE-ID name as local date-times. -/
inductive Property where
  | phrase (field : PhraseField) (value : Phrase)
  | token (field : TokenField) (value : Token)
  | span (field : SpanField) (value : Timed)
  | time (field : TimeField) (value : Moment)
  | sequence (value : Number) (small : (value.value : Int) ≤ intMax)
  | status (value : EventStatus)
  | organizer (mail : Token) (name : ParamText)
  | rrule (rule : RuleLine)
  | recurrenceId (value : Moment)
  | exdates (first : Moment) (more : List Moment)

def PhraseField.name : PhraseField → Text
  | summary => text "SUMMARY"
  | description => text "DESCRIPTION"
  | location => text "LOCATION"
  | categories => text "CATEGORIES"

def TokenField.name : TokenField → Text
  | uid => text "UID"
  | url => text "URL"

def SpanField.name : SpanField → Text
  | start => text "DTSTART"
  | end_ => text "DTEND"

def TimeField.name : TimeField → Text
  | created => text "CREATED"
  | lastModified => text "LAST-MODIFIED"
  | stamp => text "DTSTAMP"

def statusText : EventStatus → Text
  | .confirmed => text "CONFIRMED"
  | .tentative => text "TENTATIVE"
  | .canceled => text "CANCELED"

def propertyNames : List Text :=
  [text "SUMMARY", text "DESCRIPTION", text "LOCATION", text "CATEGORIES", text "UID", text "URL", text "DTSTART",
    text "DTEND", text "CREATED", text "LAST-MODIFIED", text "DTSTAMP", text "SEQUENCE", text "STATUS",
    text "ORGANIZER", text "RRULE", text "RECURRENCE-ID", text "EXDATE"]

theorem propertyNames_known : ∀ name ∈ propertyNames,
    name ≠ [] ∧ (∀ c ∈ name, isNameByte c = true) ∧ toUpper name = name ∧ name ≠ text "BEGIN" ∧
      name ≠ text "END" := by
  decide +kernel

namespace Property

def name : Property → Text
  | phrase field _ => field.name
  | token field _ => field.name
  | span field _ => field.name
  | time field _ => field.name
  | sequence _ _ => Bytes.text "SEQUENCE"
  | status _ => Bytes.text "STATUS"
  | organizer _ _ => Bytes.text "ORGANIZER"
  | rrule _ => Bytes.text "RRULE"
  | recurrenceId _ => Bytes.text "RECURRENCE-ID"
  | exdates _ _ => Bytes.text "EXDATE"

def value : Property → Text
  | phrase _ p => escape p.bytes
  | token _ t => t.bytes
  | span _ t => t.text
  | time _ m => m.text ++ [byte 'Z']
  | sequence n _ => n.digits
  | status s => statusText s
  | organizer mail _ => Bytes.text "mailto:" ++ mail.bytes
  | rrule rule => ruleText rule.parts
  | recurrenceId m => m.text
  | exdates first more => [byte ','].intercalate ((first :: more).map Moment.text)

/-- The times that are read as instants. -/
def times : Property → List Moment
  | span _ t => [t.moment]
  | time _ m => [m]
  | _ => []

def zones : Property → List ZonePlan
  | span _ t => t.zone.toList
  | _ => []

/-- What the builder is to make of it. -/
def update (zone : SystemZone) : Property → Update
  | phrase .summary p => .summary p.bytes
  | phrase .description p => .description p.bytes
  | phrase .location p => .location p.bytes
  | phrase .categories p => .categories p.bytes
  | token .uid t => .uid t.bytes
  | token .url t => .url t.bytes
  | span .start t => .start t.instant
  | span .end_ t => .end_ t.instant
  | time .created m => .created m.instant
  | time .lastModified m => .lastModified m.instant
  | time .stamp m => .stamp m.instant
  | sequence n _ => .sequence n.value
  | status s => .status s
  | organizer mail name => .organizer mail.bytes name.bytes
  | rrule rule => .rrule (readOff zone rule.parts)
  | recurrenceId m => .recurrenceId m.text
  | exdates first more => .exdates ((first :: more).map Moment.text)

theorem name_mem (p : Property) : p.name ∈ propertyNames := by
  cases p with
  | phrase field _ => cases field <;> simp [name, PhraseField.name, propertyNames]
  | token field _ => cases field <;> simp [name, TokenField.name, propertyNames]
  | span field _ => cases field <;> simp [name, SpanField.name, propertyNames]
  | time field _ => cases field <;> simp [name, TimeField.name, propertyNames]
  | _ => simp [name, propertyNames]

theorem named (p : Property) : IsName p.name :=
  ⟨(propertyNames_known _ p.name_mem).1, (propertyNames_known _ p.name_mem).2.1⟩

/-- The parameter of an organizer. -/
def commonName (name : ParamText) : Param where
  name := Bytes.text "CN"
  named := ⟨by decide, by decide +kernel⟩
  first := .plain name.bytes (fun c inside listed => name.plain c inside (by
    simp only [List.mem_cons, List.not_mem_nil, or_false] at listed ⊢
    tauto))
  more := []

theorem named_tzid : IsName (Bytes.text "TZID") := ⟨by decide, by decide +kernel⟩

/-- The parameter of a time in a zone. -/
def zoneParam (name : ZoneName) : Param where
  name := Bytes.text "TZID"
  named := named_tzid
  first := .plain name.bytes (fun c inside listed => name.plain c inside (by
    simp only [List.mem_cons, List.not_mem_nil, or_false] at listed ⊢
    tauto))
  more := []

def params : Property → List Param
  | organizer _ name => [commonName name]
  | span _ t => t.zone.elim [] (fun z => [zoneParam z.name])
  | _ => []

def line (p : Property) : ContentLine where
  name := p.name
  named := p.named
  params := p.params
  value := p.value

theorem line_organizer (mail : Token) (name : ParamText) :
    (organizer mail name).line.paramText = Bytes.text "CN=" ++ name.bytes ∧
      (organizer mail name).line.head = Bytes.text "ORGANIZER;CN=" ++ name.bytes := by
  have written : (commonName name).text = Bytes.text "CN=" ++ name.bytes := by
    rw [Param.text, Param.values, List.map_cons, commonName, List.map_nil, ParamValue.text,
      List.intercalate_singleton]
    rfl
  constructor
  · rw [ContentLine.paramText, line, params, List.map_singleton, List.intercalate_singleton, written]
  · rw [ContentLine.head, line, params, List.flatMap_singleton, written]
    rfl

theorem line_zoned (field : SpanField) (m : Moment) (z : ZonePlan) :
    (span field ⟨m, some z⟩).line.paramText = Bytes.text "TZID=" ++ z.name.bytes ∧
      (span field ⟨m, some z⟩).line.head = (field.name ++ Bytes.text ";TZID=") ++ z.name.bytes := by
  have written : (zoneParam z.name).text = Bytes.text "TZID=" ++ z.name.bytes := by
    rw [Param.text, Param.values, List.map_cons, zoneParam, List.map_nil, ParamValue.text,
      List.intercalate_singleton]
    rfl
  constructor
  · rw [ContentLine.paramText, line, params, Option.elim_some, List.map_singleton, List.intercalate_singleton,
      written]
  · rw [ContentLine.head, line, params, Option.elim_some, List.flatMap_singleton, written, List.append_assoc]
    rfl

end Property

/-! ## Lines -/

/-- Nothing in the text ends its line or is stripped from its end. -/
structure Clean (s : Text) : Prop where
  last : ∀ c ∈ s.getLast?, isBlank c = false
  noReturn : carriageReturn ∉ s
  noFeed : lineFeed ∉ s

theorem clean_of_solid {s : Text} (solid : ∀ c ∈ s, isBlank c = false) : Clean s where
  last c final := solid c (List.mem_of_getLast? final)
  noReturn inside := absurd (solid _ inside) (by decide)
  noFeed inside := absurd (solid _ inside) (by decide)

theorem clean_append {front back : Text} (noReturn : carriageReturn ∉ front) (noFeed : lineFeed ∉ front)
    (filled : back ≠ []) (clean : Clean back) : Clean (front ++ back) where
  last := by
    rw [List.getLast?_append_of_ne_nil _ filled]
    exact clean.last
  noReturn inside := (List.mem_append.mp inside).elim noReturn clean.noReturn
  noFeed inside := (List.mem_append.mp inside).elim noFeed clean.noFeed

theorem Phrase.clean (p : Phrase) : Clean (escape p.bytes) where
  last := escape_last p.tight
  noReturn inside := by
    rcases (mem_escape inside).2 with own | same | same
    · exact p.noReturn own
    · exact absurd same (by decide)
    · exact absurd same (by decide)
  noFeed inside := (mem_escape inside).1 rfl

theorem value_clean (p : Property) : Clean p.value := by
  have digits (n : Number) : ∀ c ∈ n.digits, isBlank c = false := fun c inside => isBlank_nameByte (by
    simp [isNameByte, n.all c inside])
  have utc (m : Moment) : Clean (m.text ++ [byte 'Z']) := by
    apply clean_of_solid
    intro c inside
    rcases List.mem_append.mp inside with stamp | zulu
    · exact m.solid stamp
    · rw [List.mem_singleton.mp zulu]
      decide
  cases p with
  | phrase _ p => exact p.clean
  | token _ t => exact ⟨t.tight.last, t.noReturn, t.noFeed⟩
  | span _ t =>
    obtain ⟨m, zone⟩ := t
    cases zone with
    | none => exact utc m
    | some z =>
      rw [Property.value, Timed.text, Option.elim_some, List.append_nil]
      exact clean_of_solid (fun _ inside => m.solid inside)
  | time _ m => exact utc m
  | sequence n _ => exact clean_of_solid (digits n)
  | status s => exact clean_of_solid (by cases s <;> decide +kernel)
  | organizer mail _ =>
    have own : Clean mail.bytes := ⟨mail.tight.last, mail.noReturn, mail.noFeed⟩
    by_cases filled : mail.bytes = []
    · rw [Property.value, filled]
      exact clean_of_solid (by decide +kernel)
    · exact clean_append (by decide) (by decide) filled own
  | rrule rule => exact ⟨rule.tight.last, rule.noReturn, rule.noFeed⟩
  | recurrenceId m => exact clean_of_solid (fun _ inside => m.solid inside)
  | exdates first more =>
    apply clean_of_solid
    intro c inside
    by_cases comma : c = byte ','
    · rw [comma]
      decide
    · obtain ⟨part, member, within⟩ := (mem_intercalate comma _).mp inside
      obtain ⟨m, _, rfl⟩ := List.mem_map.mp member
      exact m.solid within

theorem head_clean (p : Property) : carriageReturn ∉ p.line.head ∧ lineFeed ∉ p.line.head := by
  have name : carriageReturn ∉ p.name ∧ lineFeed ∉ p.name :=
    ⟨p.named.not_mem (by decide), p.named.not_mem (by decide)⟩
  have plain {p : Property} (bare : p.line.params = []) (name : carriageReturn ∉ p.name ∧ lineFeed ∉ p.name) :
      carriageReturn ∉ p.line.head ∧ lineFeed ∉ p.line.head := by
    rw [ContentLine.head, bare, List.flatMap_nil, List.append_nil]
    exact name
  cases p with
  | organizer mail name' =>
    have own : carriageReturn ∉ name'.bytes ∧ lineFeed ∉ name'.bytes :=
      ⟨fun inside => name'.plain _ inside (by decide), fun inside => name'.plain _ inside (by decide)⟩
    rw [(Property.line_organizer mail name').2]
    exact ⟨fun inside => (List.mem_append.mp inside).elim (by decide) own.1,
      fun inside => (List.mem_append.mp inside).elim (by decide) own.2⟩
  | span field t =>
    obtain ⟨m, zone⟩ := t
    cases zone with
    | none => exact plain rfl name
    | some z =>
      have own : carriageReturn ∉ z.name.bytes ∧ lineFeed ∉ z.name.bytes :=
        ⟨fun inside => z.name.plain _ inside (by decide), fun inside => z.name.plain _ inside (by decide)⟩
      rw [(Property.line_zoned field m z).2]
      exact ⟨fun inside => (List.mem_append.mp inside).elim (by cases field <;> decide) own.1,
        fun inside => (List.mem_append.mp inside).elim (by cases field <;> decide) own.2⟩
  | _ => exact plain rfl name

theorem line_text_clean (p : Property) : Clean p.line.text := by
  have behindColon : Clean (byte ':' :: p.value) := by
    by_cases filled : p.value = []
    · rw [filled]
      exact clean_of_solid (by decide +kernel)
    · show Clean ([byte ':'] ++ p.value)
      exact clean_append (by decide) (by decide) filled (value_clean p)
  exact clean_append (head_clean p).1 (head_clean p).2 (List.cons_ne_nil _ _) behindColon

theorem line_tight (p : Property) : Tight p.line.text where
  head := by
    obtain ⟨c, rest, same⟩ := List.exists_cons_of_ne_nil p.named.filled
    have first : p.line.text.head? = some c := by
      rw [ContentLine.text, ContentLine.head, show p.line.name = p.name from rfl, same]
      rfl
    intro d head
    rw [first] at head
    cases head
    exact isBlank_nameByte (p.named.bytes c (same ▸ List.mem_cons_self))
  last := (line_text_clean p).last

theorem splitIcsLine_line (p : Property) :
    splitIcsLine p.line.text = (p.name, p.line.paramText, p.value) := by
  have unquoted : byte ':' ∉ p.line.paramText := by
    cases p with
    | organizer mail name =>
      rw [(Property.line_organizer mail name).1, List.mem_append, not_or]
      exact ⟨by decide, fun inside => name.plain _ inside (by decide)⟩
    | span field t =>
      obtain ⟨m, zone⟩ := t
      cases zone with
      | none => exact List.not_mem_nil
      | some z =>
        rw [(Property.line_zoned field m z).1, List.mem_append, not_or]
        exact ⟨by decide, fun inside => z.name.plain _ inside (by decide)⟩
    | _ => exact List.not_mem_nil
  rw [splitIcsLine_text unquoted]
  exact congrArg (·, p.line.paramText, p.value) (propertyNames_known _ p.name_mem).2.2.1

/-! ## Values that are read back -/

theorem unescape_of_not_mem {s : Text} (plain : byte '\\' ∉ s) : unescape s = s := by
  induction s with
  | nil => rfl
  | cons c rest ih =>
    rw [unescape_plain (Ne.symm (List.ne_of_not_mem_cons plain)), ih (List.not_mem_of_not_mem_cons plain)]

theorem exdateParts_moments (ms : List Moment) :
    exdateParts ([byte ','].intercalate (ms.map Moment.text)) = ms.map Moment.text := by
  have filled (m : Moment) : m.text ≠ [] := List.ne_nil_of_length_eq_add_one (length_dateTimeText m.time)
  have tight (m : Moment) : Tight m.text :=
    ⟨fun c first => m.solid (List.mem_of_mem_head? first), fun c last => m.solid (List.mem_of_getLast? last)⟩
  rw [exdateParts, getlines_intercalate, List.map_map]
  · have trimmed : trim ∘ Moment.text = Moment.text := funext (fun m => trim_tight (tight m))
    rw [trimmed, List.filter_eq_self]
    intro part member
    obtain ⟨m, _, rfl⟩ := List.mem_map.mp member
    simpa using filled m
  · intro part member
    obtain ⟨m, _, rfl⟩ := List.mem_map.mp member
    exact m.not_mem_text (by decide) (by decide)
  · intro part last
    obtain ⟨m, _, rfl⟩ := List.mem_map.mp (List.mem_of_getLast? last)
    exact filled m

theorem mailAddress_mailto (mail : Text) : mailAddress (text "mailto:" ++ mail) = mail := by
  rw [mailAddress, find_prefix (by decide)]
  exact List.drop_left' rfl

theorem paramValue_commonName (name : ParamText) : paramValue (text "CN=" ++ name.bytes) "CN" = name.bytes := by
  have ends : ∀ c ∈ name.bytes, (c != byte ';') = true := fun c inside =>
    bne_iff_ne.mpr (fun same => name.plain c inside (by simp [same]))
  rw [paramValue, paramAfter, show text "CN" ++ [byte '='] = text "CN=" by decide, find_prefix (by decide),
    Option.map_some, Nat.zero_add, List.drop_left, List.takeWhile_eq_self_iff.mpr ends, Option.getD_some]

theorem behindLastColon_moment (m : Moment) : behindLastColon m.text = m.text := by
  have absent : byte ':' ∉ m.text := m.not_mem_text (by decide) (by decide)
  have none : rfind (byte ':') m.text = none := by simpa [rfind, List.idxOf?_eq_none_iff] using absent
  rw [behindLastColon, none]

section Reading
variable {zone : SystemZone} (tz : TimezoneResolver)

theorem parseStamp_moment {m : Moment} (converts : m.Converts zone) :
    parseStamp zone (m.text ++ [byte 'Z']) = m.instant := by
  have long : ¬(m.text ++ [byte 'Z']).length < 15 := by
    rw [List.length_append, Moment.text, length_dateTimeText]
    omega
  rw [parseStamp, if_neg long, Moment.text, readDateTime_text m.valid m.year]
  exact congrArg pointOf (converts 0)

theorem parseIcsDatetime_moment {m : Moment} (converts : m.Converts zone) :
    parseIcsDatetime zone tz (makeDatetimeInfo [] (m.text ++ [byte 'Z'])) = .ok m.instant := by
  have wall : readWall { isUtc := true, value := dateTimeText m.time ++ [byte 'Z'] } = .ok (wallTm m.time) :=
    readWall_text m.valid m.year rfl
  rw [Moment.text, makeDatetimeInfo_utc, parseIcsDatetime, wall]
  exact congrArg (Except.ok ∘ pointOf) (converts (-1))

theorem parseIcsDatetime_zone {m : Moment} (converts : m.Converts zone) {z : ZonePlan}
    (known : offsetHours tz z.name.bytes = z.hours) :
    parseIcsDatetime zone tz (makeDatetimeInfo (text "TZID=" ++ z.name.bytes) m.text) =
      .ok (pointOf (m.time.seconds - z.hours * 3600)) := by
  have wall : readWall { timezone := z.name.bytes, value := dateTimeText m.time } = .ok (wallTm m.time) :=
    readWall_text m.valid m.year (List.append_nil _).symm
  have whole : byte ';' ∉ z.name.bytes := fun inside => z.name.plain _ inside (by decide)
  have given : z.hours ≠ kUnknownOffset := by
    have range := z.range
    rw [kUnknownOffset, intMin]
    omega
  rw [Moment.text, makeDatetimeInfo_zoned z.name.filled whole z.name.noDate]
  simp only [parseIcsDatetime, wall, bind, Except.bind]
  simp [known, given, z.name.filled, converts (-1), pure, Except.pure]

theorem parseIcsDatetime_timed (field : SpanField) {t : Timed} (converts : t.moment.Converts zone)
    (known : ∀ z ∈ t.zone.toList, offsetHours tz z.name.bytes = z.hours) :
    parseIcsDatetime zone tz (makeDatetimeInfo (Property.span field t).line.paramText t.text) = .ok t.instant := by
  obtain ⟨m, inZone⟩ := t
  cases inZone with
  | none => exact parseIcsDatetime_moment tz converts
  | some z =>
    rw [(Property.line_zoned field m z).1, Timed.text, Option.elim_some, List.append_nil]
    exact parseIcsDatetime_zone tz converts (known z (List.mem_singleton_self z))

theorem readProperty_value (p : Property) (converts : ∀ m ∈ p.times, m.Converts zone)
    (known : ∀ z ∈ p.zones, offsetHours tz z.name.bytes = z.hours) :
    readProperty zone tz p.name p.line.paramText p.value = .ok (p.update zone) := by
  cases p with
  | phrase field p =>
    cases field with
    | summary =>
      show Except.ok (Update.summary (trim (unescape (escape p.bytes)))) = _
      rw [unescape_escape, trim_tight p.tight]
      rfl
    | description =>
      show Except.ok (Update.description (unescape (escape p.bytes))) = _
      rw [unescape_escape]
      rfl
    | location =>
      show Except.ok (Update.location (unescape (escape p.bytes))) = _
      rw [unescape_escape]
      rfl
    | categories =>
      show Except.ok (Update.categories (unescape (escape p.bytes))) = _
      rw [unescape_escape]
      rfl
  | token field t => cases field <;> rfl
  | span field t =>
    have read := parseIcsDatetime_timed tz field (converts t.moment List.mem_cons_self) known
    cases field with
    | start =>
      show (parseIcsDatetime zone tz (makeDatetimeInfo _ t.text)).map Update.start = _
      rw [read]
      rfl
    | end_ =>
      show (parseIcsDatetime zone tz (makeDatetimeInfo _ t.text)).map Update.end_ = _
      rw [read]
      rfl
  | time field m =>
    have given : m.Converts zone := converts m List.mem_cons_self
    cases field with
    | created =>
      show Except.ok (Update.created (parseStamp zone (m.text ++ [byte 'Z']))) = _
      rw [parseStamp_moment given]
      rfl
    | lastModified =>
      show Except.ok (Update.lastModified (parseStamp zone (m.text ++ [byte 'Z']))) = _
      rw [parseStamp_moment given]
      rfl
    | stamp =>
      show Except.ok (Update.stamp (parseStamp zone (m.text ++ [byte 'Z']))) = _
      rw [parseStamp_moment given]
      rfl
  | sequence n small => exact readProperty_sequence (stoi_digits n.filled n.all small)
  | status s =>
    have read : readStatus (statusText s) = s := by cases s <;> decide
    show Except.ok (Update.status (readStatus (statusText s))) = _
    rw [read]
    rfl
  | organizer mail name =>
    have plain : unescape name.bytes = name.bytes :=
      unescape_of_not_mem (fun inside => name.plain _ inside (by decide))
    rw [(Property.line_organizer mail name).1]
    show Except.ok (Update.organizer (mailAddress (text "mailto:" ++ mail.bytes))
      (unescape (paramValue (text "CN=" ++ name.bytes) "CN"))) = _
    rw [mailAddress_mailto, paramValue_commonName, plain]
    rfl
  | rrule rule =>
    show (parseRruleData zone (ruleText rule.parts)).map Update.rrule = _
    rw [parseRruleData_ruleText]
    rfl
  | recurrenceId m =>
    show Except.ok (Update.recurrenceId (behindLastColon m.text)) = _
    rw [behindLastColon_moment]
    rfl
  | exdates first more =>
    show Except.ok (Update.exdates (exdateParts ([byte ','].intercalate ((first :: more).map Moment.text)))) = _
    rw [exdateParts_moments]
    rfl

theorem readLine_line (p : Property) (converts : ∀ m ∈ p.times, m.Converts zone)
    (known : ∀ z ∈ p.zones, offsetHours tz z.name.bytes = z.hours) :
    readLine zone tz p.line.text = .ok (p.update zone) := by
  rw [readLine, nameOf, trim_tight (line_tight p), splitIcsLine_line]
  exact readProperty_value tz p converts known

end Reading

theorem nameOf_line (p : Property) : nameOf p.line.text = p.name := by
  rw [nameOf, trim_tight (line_tight p), splitIcsLine_line]

end DivoomDev.Ics.WrittenProperties
