import DivoomDev.Ics.Folding

/-! Writing VEVENTs and reading them back: TEXT escaping, content lines, folded lines and the
scan for blocks undo what a writer of calendars does. -/

namespace DivoomDev.Ics.RoundTrip
open DivoomDev.Library.Bytes DivoomDev.Library.Fallible TextUtils Timezone Models Datetime EventBuilder
  Pipeline Unfolding Folding

/-! ## Escaping -/

def escapeByte (c : UInt8) : Text :=
  if c = lineFeed then text "\\n"
  else if c = byte '\\' ∨ c = byte ',' ∨ c = byte ';' then [byte '\\', c]
  else [c]

/-- TEXT escaping of backslash, comma, semicolon and line feed. -/
def escape (s : Text) : Text := s.flatMap escapeByte

theorem unescape_plain {c : UInt8} (plain : c ≠ byte '\\') (rest : Text) :
    unescape (c :: rest) = c :: unescape rest := by
  cases rest with
  | nil => rfl
  | cons d rest => rw [unescape, if_neg plain]

/-- The ways to write a byte of a TEXT; the line feed has two. -/
def spellings (c : UInt8) : List Text :=
  if c = lineFeed then [text "\\n", text "\\N"]
  else if c = byte '\\' ∨ c = byte ',' ∨ c = byte ';' then [[byte '\\', c]]
  else [[c]]

/-- The loop is behind a byte's spelling when it has read it, whatever stands there. -/
theorem unescape_spelling {c : UInt8} {spelled : Text} (written : spelled ∈ spellings c) (rest : Text) :
    unescape (spelled ++ rest) = c :: unescape rest := by
  unfold spellings at written
  split_ifs at written with newline special
  · rw [newline]
    rcases List.mem_pair.mp written with rfl | rfl
    · show unescape (byte '\\' :: byte 'n' :: rest) = _
      rw [unescape, if_pos rfl, if_pos (.inl rfl)]
    · show unescape (byte '\\' :: byte 'N' :: rest) = _
      rw [unescape, if_pos rfl, if_pos (.inr rfl)]
  · have notNewline : ¬(c = byte 'n' ∨ c = byte 'N') := by
      rcases special with rfl | rfl | rfl <;> decide
    have known : c = byte ',' ∨ c = byte ';' ∨ c = byte '\\' := by tauto
    obtain rfl := List.mem_singleton.mp written
    show unescape (byte '\\' :: c :: rest) = _
    rw [unescape, if_pos rfl, if_neg notNewline, if_pos known]
  · have plain : c ≠ byte '\\' := fun same => special (.inl same)
    obtain rfl := List.mem_singleton.mp written
    exact unescape_plain plain rest

theorem escapeByte_mem_spellings (c : UInt8) : escapeByte c ∈ spellings c := by
  unfold escapeByte spellings
  split_ifs
  · exact List.mem_cons_self
  · exact List.mem_singleton_self _
  · exact List.mem_singleton_self _

theorem unescape_escape (s : Text) : unescape (escape s) = s := by
  induction s with
  | nil => rfl
  | cons c rest ih =>
    rw [escape, List.flatMap_cons, ← escape, unescape_spelling (escapeByte_mem_spellings c), ih]

/-- Every way to escape a text is undone, with each line feed in either spelling. -/
theorem unescape_escaping {s : Text} {escaping : List Text}
    (written : List.Forall₂ (fun c spelled => spelled ∈ spellings c) s escaping) :
    unescape escaping.flatten = s := by
  induction written with
  | nil => rfl
  | cons spelled _ ih => rw [List.flatten_cons, unescape_spelling spelled, ih]

/-- Backslashes in front of an n, of a comma, of a line break and at the end. -/
theorem unescape_escaping_backslashes :
    unescape (text "\\\\n\\\\\\,\\n\\\\\\N\\\\") = text "\\n\\,\n\\\n\\" :=
  unescape_escaping
    (show List.Forall₂ (fun c spelled => spelled ∈ spellings c) (text "\\n\\,\n\\\n\\")
        [text "\\\\", text "n", text "\\\\", text "\\,", text "\\n", text "\\\\", text "\\N", text "\\\\"]
      by decide)

theorem mem_escape {c : UInt8} {s : Text} (member : c ∈ escape s) :
    c ≠ lineFeed ∧ (c ∈ s ∨ c = byte '\\' ∨ c = byte 'n') := by
  obtain ⟨d, inside, written⟩ := List.mem_flatMap.mp member
  unfold escapeByte at written
  split_ifs at written with newline special
  · have either : c = byte '\\' ∨ c = byte 'n' := by
      simpa [show text "\\n" = [byte '\\', byte 'n'] by decide] using written
    refine ⟨?_, .inr either⟩
    rcases either with rfl | rfl <;> decide
  · rcases List.mem_cons.mp written with rfl | same
    · exact ⟨by decide, .inr (.inl rfl)⟩
    · obtain rfl := List.mem_singleton.mp same
      exact ⟨newline, .inl inside⟩
  · obtain rfl := List.mem_singleton.mp written
    exact ⟨newline, .inl inside⟩

/-! ## Trimming -/

structure Tight (s : Text) : Prop where
  head : ∀ c ∈ s.head?, isBlank c = false
  last : ∀ c ∈ s.getLast?, isBlank c = false

theorem trim_tight {s : Text} (tight : Tight s) : trim s = s := by
  cases s with
  | nil => rfl
  | cons c tail =>
    have first : isBlank c = false := tight.head c rfl
    obtain ⟨front, last, same⟩ := (List.eq_nil_or_concat (c :: tail)).resolve_left (List.cons_ne_nil _ _)
    have final : isBlank last = false := tight.last last (by simp [same])
    rw [trim, strip, List.dropWhile_cons_of_neg (by simp [first]), same, List.concat_eq_append,
      List.reverse_append, List.reverse_singleton, List.singleton_append,
      List.dropWhile_cons_of_neg (by simp [final]), List.reverse_cons, List.reverse_reverse]

theorem escape_last {s : Text} (tight : Tight s) : ∀ c ∈ (escape s).getLast?, isBlank c = false := by
  rcases List.eq_nil_or_concat s with rfl | ⟨front, last, rfl⟩
  · simp [escape]
  · have solid : isBlank last = false := tight.last last (by simp)
    have notNewline : last ≠ lineFeed := fun same => absurd (same ▸ solid) (by decide)
    intro c final
    have written : (escapeByte last).getLast? = some last := by
      unfold escapeByte
      rw [if_neg notNewline]
      split_ifs <;> rfl
    have ends : (escape (front ++ [last])).getLast? = some last := by
      simp [escape, List.getLast?_append, written]
    rw [List.concat_eq_append, ends] at final
    cases final
    exact solid

/-! ## Content lines -/

/-- What a writer puts into a VEVENT. The status is the text of its property. -/
structure Record where
  uid : Text
  summary : Text
  description : Text
  location : Text
  status : Text
  deriving DecidableEq, Repr

inductive Field where
  | uid
  | summary
  | description
  | location
  | status
  deriving DecidableEq, Repr

namespace Field

def name : Field → Text
  | uid => text "UID"
  | summary => text "SUMMARY"
  | description => text "DESCRIPTION"
  | location => text "LOCATION"
  | status => text "STATUS"

def value (r : Record) : Field → Text
  | uid => r.uid
  | summary => r.summary
  | description => r.description
  | location => r.location
  | status => r.status

/-- Only the three TEXT values are escaped. -/
def encoded (r : Record) : Field → Text
  | uid => r.uid
  | summary => escape r.summary
  | description => escape r.description
  | location => escape r.location
  | status => r.status

def line (r : Record) (f : Field) : Text := f.name ++ byte ':' :: f.encoded r

def Holds (r : Record) (re : RawEvent) : Field → Prop
  | uid => re.ev.uid = r.uid
  | summary => re.ev.summary = r.summary
  | description => re.ev.description = r.description
  | location => re.ev.location = r.location
  | status => re.ev.status = readStatus r.status

def set (r : Record) (re : RawEvent) : Field → RawEvent
  | uid => { re with ev.uid := r.uid }
  | summary => { re with ev.summary := r.summary }
  | description => { re with ev.description := r.description }
  | location => { re with ev.location := r.location }
  | status => { re with ev.status := readStatus r.status }

end Field

theorem set_holds {r : Record} {re : RawEvent} {f g : Field} (given : g = f ∨ g.Holds r re) :
    g.Holds r (f.set r re) := by
  cases f <;> cases g <;> first | rfl | exact given.resolve_left (by decide)

structure Record.Sound (r : Record) : Prop where
  identified : r.uid ≠ []
  tight : ∀ f : Field, Tight (f.value r)
  noReturn : ∀ f : Field, carriageReturn ∉ f.value r
  oneLine : lineFeed ∉ r.uid ∧ lineFeed ∉ r.status

theorem encoded_clean {r : Record} (sound : r.Sound) (f : Field) :
    lineFeed ∉ f.encoded r ∧ carriageReturn ∉ f.encoded r := by
  have escaped (s : Text) (noReturn : carriageReturn ∉ s) :
      lineFeed ∉ escape s ∧ carriageReturn ∉ escape s := by
    refine ⟨fun member => (mem_escape member).1 rfl, fun member => ?_⟩
    rcases (mem_escape member).2 with inside | same | same
    · exact noReturn inside
    · exact absurd same (by decide)
    · exact absurd same (by decide)
  have noReturn := sound.noReturn f
  cases f with
  | uid => exact ⟨sound.oneLine.1, noReturn⟩
  | summary => exact escaped _ noReturn
  | description => exact escaped _ noReturn
  | location => exact escaped _ noReturn
  | status => exact ⟨sound.oneLine.2, noReturn⟩

theorem encoded_last {r : Record} (sound : r.Sound) (f : Field) :
    ∀ c ∈ (f.encoded r).getLast?, isBlank c = false := by
  have tight := sound.tight f
  cases f with
  | uid => exact tight.last
  | summary => exact escape_last tight
  | description => exact escape_last tight
  | location => exact escape_last tight
  | status => exact tight.last

theorem line_head (r : Record) (f : Field) : (f.line r).head? = f.name.head? := by
  cases f <;> rfl

theorem line_tight {r : Record} (sound : r.Sound) (f : Field) : Tight (f.line r) where
  head := by
    rw [line_head]
    cases f <;> decide +kernel
  last := by
    intro c final
    rw [Field.line, List.getLast?_append_of_ne_nil _ (List.cons_ne_nil _ _), List.getLast?_cons] at final
    rw [← Option.some.inj final]
    cases last : (f.encoded r).getLast? with
    | none => decide
    | some d => exact encoded_last sound f d last

theorem line_clean {r : Record} (sound : r.Sound) (f : Field) :
    lineFeed ∉ f.line r ∧ carriageReturn ∉ f.line r := by
  obtain ⟨noFeed, noReturn⟩ := encoded_clean sound f
  have name : lineFeed ∉ f.name ++ [byte ':'] ∧ carriageReturn ∉ f.name ++ [byte ':'] := by
    cases f <;> decide
  have whole : f.line r = (f.name ++ [byte ':']) ++ f.encoded r := by simp [Field.line]
  rw [whole]
  exact ⟨fun member => (List.mem_append.mp member).elim name.1 noFeed,
    fun member => (List.mem_append.mp member).elim name.2 noReturn⟩

/-- The first colon is the one behind the name, whatever the value holds. -/
theorem splitIcsLine_line (r : Record) (f : Field) :
    splitIcsLine (f.line r) = (f.name, [], f.encoded r) := by
  have name : byte ':' ∉ f.name ∧ f.name.idxOf? (byte ';') = none ∧ toUpper f.name = f.name := by
    cases f <;> decide
  have value : (f.line r).drop (f.name.length + 1) = f.encoded r := by
    have whole : f.line r = (f.name ++ [byte ':']) ++ f.encoded r := by simp [Field.line]
    rw [whole, List.drop_left' (by simp)]
  have colon : (f.line r).idxOf? (byte ':') = some f.name.length := idxOf?_append name.1 _
  have front : (f.line r).take f.name.length = f.name := by
    rw [Field.line, List.take_left]
  simp only [splitIcsLine, colon, front, name.2.1, name.2.2, value]

theorem applyLine_line {zone : SystemZone} {tz : TimezoneResolver} {r : Record} (sound : r.Sound) (f : Field)
    (re : RawEvent) : applyLine zone tz re (f.line r) = .ok (f.set r re) := by
  have name : f.name ≠ [] := by cases f <;> decide
  have read : applyLine zone tz re (f.line r) = applyProperty zone tz re f.name [] (f.encoded r) := by
    rw [applyLine, trim_tight (line_tight sound f), splitIcsLine_line]
    exact if_neg name
  rw [read]
  cases f with
  | uid => rfl
  | summary =>
    have summary : trim (unescape (escape r.summary)) = r.summary := by
      rw [unescape_escape]
      exact trim_tight (sound.tight .summary)
    show Except.ok { re with ev.summary := trim (unescape (escape r.summary)) } = _
    rw [summary]
    rfl
  | description =>
    show Except.ok { re with ev.description := unescape (escape r.description) } = _
    rw [unescape_escape]
    rfl
  | location =>
    show Except.ok { re with ev.location := unescape (escape r.location) } = _
    rw [unescape_escape]
    rfl
  | status => rfl

/-! ## Blocks -/

def setAll (r : Record) (order : List Field) : RawEvent := order.foldl (fun re f => f.set r re) {}

theorem foldl_set_holds {r : Record} {order : List Field} {g : Field} {re : RawEvent}
    (given : g ∈ order ∨ g.Holds r re) : g.Holds r (order.foldl (fun re f => f.set r re) re) := by
  induction order generalizing re with
  | nil => exact given.resolve_left List.not_mem_nil
  | cons f rest ih =>
    apply ih
    rcases given with member | holds
    · exact (List.mem_cons.mp member).symm.imp_right (fun same => set_holds (.inl same))
    · exact .inr (set_holds (.inr holds))

theorem setAll_holds (r : Record) {order : List Field} {g : Field} (written : g ∈ order) :
    g.Holds r (setAll r order) := foldl_set_holds (.inl written)

theorem build_record {zone : SystemZone} {tz : TimezoneResolver} {r : Record} (sound : r.Sound)
    (order : List Field) :
    build zone tz (order.map (Field.line r)) [] = .ok (setAll r order) := by
  have lines (re : RawEvent) : (order.map (Field.line r)).foldlM (applyLine zone tz) re =
      .ok (order.foldl (fun re f => f.set r re) re) := by
    induction order generalizing re with
    | nil => rfl
    | cons f rest ih =>
      rw [List.map_cons, List.foldlM_cons, applyLine_line sound f]
      exact ih _
  rw [build, lines]
  show Except.ok { setAll r order with ev.alarms := (setAll r order).ev.alarms ++ [] } = _
  rw [List.append_nil]

/-- A record and the order in which its properties are written. -/
structure Entry where
  record : Record
  order : List Field
  deriving DecidableEq, Repr

/-- The record can be written, and each of its fields is. -/
structure Entry.Sound (e : Entry) : Prop where
  record : e.record.Sound
  complete : ∀ f : Field, f ∈ e.order

def Entry.lines (e : Entry) : List Text :=
  text "BEGIN:VEVENT" :: (e.order.map (Field.line e.record) ++ [text "END:VEVENT"])

theorem line_ne (r : Record) (f : Field) (t : Text) (other : f.name.head? ≠ t.head?) : f.line r ≠ t := by
  intro same
  apply other
  rw [← line_head r f, same]

theorem scanBlocks_fields {r : Record} (sound : r.Sound) {order : List Field} {front rest : List Text}
    (some : front ≠ [] ∨ order ≠ []) :
    scanBlocks { inEvent := true, eventLines := front }
        (order.map (Field.line r) ++ text "END:VEVENT" :: rest) =
      ⟨front ++ order.map (Field.line r), []⟩ :: scanBlocks {} rest := by
  induction order generalizing front with
  | nil =>
    have filled : front ≠ [] := some.resolve_right (fun given => given rfl)
    have closes : trim (text "END:VEVENT") = text "END:VEVENT" := by decide
    simp only [List.map_nil, List.nil_append, scanBlocks, trim_dropCarriageReturn, closes, if_true, filled,
      if_false, List.append_nil, List.singleton_append]
  | cons f later ih =>
    have head : f.name.head? ≠ (text "BEGIN:VEVENT").head? ∧ f.name.head? ≠ (text "END:VEVENT").head? ∧
        f.name.head? ≠ (text "BEGIN:VALARM").head? ∧ f.name.head? ≠ (text "END:VALARM").head? := by
      cases f <;> decide +kernel
    have trimmed : trim (dropCarriageReturn (f.line r)) = f.line r := by
      rw [trim_dropCarriageReturn, trim_tight (line_tight sound f)]
    have next : ({ inEvent := true, eventLines := front } : LineScan).line (f.line r) =
        { inEvent := true, eventLines := front ++ [f.line r] } := by
      simp [LineScan.line, line_ne r f _ head.1, line_ne r f _ head.2.2.1, line_ne r f _ head.2.2.2]
    rw [List.map_cons, List.cons_append, scanBlocks, trimmed]
    simp only [if_neg (line_ne r f _ head.2.1), next]
    rw [ih (.inl (by simp))]
    simp

theorem scanBlocks_entries {entries : List Entry} (sound : ∀ e ∈ entries, e.Sound) :
    scanBlocks {} (entries.flatMap Entry.lines) =
      entries.map (fun e => ⟨e.order.map (Field.line e.record), []⟩) := by
  induction entries with
  | nil => rfl
  | cons e rest ih =>
    obtain ⟨first, others⟩ := List.forall_mem_cons.mp sound
    have filled : e.order ≠ [] := List.ne_nil_of_mem (first.complete .uid)
    have begins : trim (dropCarriageReturn (text "BEGIN:VEVENT")) = text "BEGIN:VEVENT" := by decide
    have notEnd : text "BEGIN:VEVENT" ≠ text "END:VEVENT" := by decide
    have opened : ({} : LineScan).line (text "BEGIN:VEVENT") = { inEvent := true } := if_pos rfl
    rw [List.flatMap_cons, Entry.lines, List.cons_append, scanBlocks, begins]
    simp only [if_neg notEnd, opened, List.append_assoc, List.singleton_append]
    rw [scanBlocks_fields first.record (.inr filled), ih others]
    rfl

theorem collect_entries {zone : SystemZone} {tz : TimezoneResolver} {entries : List Entry}
    (sound : ∀ e ∈ entries, e.Sound) {unfolded : Text}
    (lines : getlines lineFeed unfolded = entries.flatMap Entry.lines) :
    collectRawEvents zone tz unfolded = .ok (entries.map (fun e => setAll e.record e.order)) := by
  have built : (entries.map (fun e => (⟨e.order.map (Field.line e.record), []⟩ : VeventBlock))).mapM
      (buildVevent zone tz) = .ok (entries.map (fun e =>
        ⟨⟨e.order.map (Field.line e.record), []⟩, setAll e.record e.order⟩)) := by
    clear lines
    induction entries with
    | nil => rfl
    | cons e rest ih =>
      obtain ⟨first, others⟩ := List.forall_mem_cons.mp sound
      rw [List.map_cons, List.mapM_cons, ih others, buildVevent, build_record first.record]
      rfl
  have identified : ∀ e ∈ entries, (setAll e.record e.order).ev.uid ≠ [] := by
    intro e member
    have uid : (setAll e.record e.order).ev.uid = e.record.uid :=
      setAll_holds e.record ((sound e member).complete .uid)
    rw [uid]
    exact (sound e member).record.identified
  rw [collectRawEvents_blocks, lines, scanBlocks_entries sound, built]
  show Except.ok (keptRaws _) = _
  rw [keptRaws, List.filter_eq_self.mpr, List.map_map]
  · rfl
  · intro v member
    obtain ⟨e, inside, rfl⟩ := List.mem_map.mp member
    simpa using identified e inside

/-! ## Line breaks -/

def lineBreak (crlf : Bool) : Text := if crlf then [carriageReturn, lineFeed] else [lineFeed]

def writeLines (lines : List (Text × Bool)) : Text := lines.flatMap (fun line => line.1 ++ lineBreak line.2)

theorem dropCarriageReturn_clean {line : Text} (clean : carriageReturn ∉ line) :
    dropCarriageReturn line = line := if_neg (fun ends => clean (List.mem_of_getLast? ends))

theorem physicalLines_writeLines {lines : List (Text × Bool)}
    (clean : ∀ line ∈ lines, lineFeed ∉ line.1 ∧ carriageReturn ∉ line.1) :
    physicalLines (writeLines lines) = lines.map Prod.fst := by
  induction lines with
  | nil => rfl
  | cons line rest ih =>
    obtain ⟨⟨noFeed, noReturn⟩, others⟩ := List.forall_mem_cons.mp clean
    have later := ih others
    obtain ⟨content, crlf⟩ := line
    rw [physicalLines, writeLines, List.flatMap_cons, ← writeLines]
    cases crlf with
    | false =>
      have first : getlines lineFeed (content ++ lineBreak false ++ writeLines rest) =
          content :: getlines lineFeed (writeLines rest) := by
        rw [lineBreak, if_neg Bool.false_ne_true, List.append_assoc]
        exact getlines_cons noFeed _
      rw [first, List.map_cons, List.map_cons, dropCarriageReturn_clean noReturn, ← later]
      rfl
    | true =>
      have first : getlines lineFeed (content ++ lineBreak true ++ writeLines rest) =
          (content ++ [carriageReturn]) :: getlines lineFeed (writeLines rest) := by
        have noFeed : lineFeed ∉ content ++ [carriageReturn] := by
          simpa [show lineFeed ≠ carriageReturn by decide] using noFeed
        have whole : content ++ lineBreak true ++ writeLines rest =
            (content ++ [carriageReturn]) ++ lineFeed :: writeLines rest := by simp [lineBreak]
        rw [whole, getlines_cons noFeed]
      have dropped : dropCarriageReturn (content ++ [carriageReturn]) = content := by
        simp [dropCarriageReturn]
      rw [first, List.map_cons, List.map_cons, dropped, ← later]
      rfl

/-! ## Records that are written and read back -/

theorem thinned_filled {lines lines' : List Text} (filled : ∀ line ∈ lines, line ≠ [])
    (thinned : Thinned lines lines') : lines' = lines := by
  induction thinned with
  | nil => rfl
  | keep line _ ih => rw [ih (List.forall_mem_cons.mp filled).2]
  | drop _ _ => exact absurd rfl (List.forall_mem_cons.mp filled).1

theorem physical_clean {f : FoldedLine} (sound : f.Sound)
    (clean : lineFeed ∉ f.line ∧ carriageReturn ∉ f.line) :
    ∀ line ∈ f.physical, lineFeed ∉ line ∧ carriageReturn ∉ line := by
  intro line member
  rcases List.mem_cons.mp member with rfl | later
  · exact ⟨fun inside => clean.1 (List.mem_append_left _ inside),
      fun inside => clean.2 (List.mem_append_left _ inside)⟩
  · obtain ⟨piece, inRest, rfl⟩ := List.mem_map.mp later
    have inLine (c : UInt8) (inside : c ∈ piece.2) : c ∈ f.line :=
      List.mem_append_right _ (List.mem_flatMap.mpr ⟨piece, inRest, inside⟩)
    have blank : piece.1 ≠ lineFeed ∧ piece.1 ≠ carriageReturn := by
      rcases sound.blanks piece inRest with same | same <;> rw [same] <;> decide
    exact ⟨List.not_mem_cons_of_ne_of_not_mem blank.1.symm (fun inside => clean.1 (inLine _ inside)),
      List.not_mem_cons_of_ne_of_not_mem blank.2.symm (fun inside => clean.2 (inLine _ inside))⟩

theorem physicalLines_written {pieces : List FoldedLine} {written : List (Text × Bool)}
    (cut : ∀ f ∈ pieces, f.Sound)
    (clean : ∀ line ∈ pieces.map FoldedLine.line, line ≠ [] ∧ lineFeed ∉ line ∧ carriageReturn ∉ line)
    (ended : written.map Prod.fst = pieces.flatMap FoldedLine.physical) :
    physicalLines (writeLines written) = pieces.flatMap FoldedLine.physical := by
  rw [physicalLines_writeLines, ended]
  intro line member
  have inPieces : line.1 ∈ pieces.flatMap FoldedLine.physical := ended ▸ List.mem_map_of_mem member
  obtain ⟨f, inside, inLine⟩ := List.mem_flatMap.mp inPieces
  exact physical_clean (cut f inside) (clean f.line (List.mem_map_of_mem inside)).2 line.1 inLine

/-- Lines that are not empty come back from any folding, with either line break. -/
theorem unfoldedLines_written {pieces : List FoldedLine} {written : List (Text × Bool)}
    (cut : ∀ f ∈ pieces, f.Sound)
    (clean : ∀ line ∈ pieces.map FoldedLine.line, line ≠ [] ∧ lineFeed ∉ line ∧ carriageReturn ∉ line)
    (ended : written.map Prod.fst = pieces.flatMap FoldedLine.physical) :
    unfoldedLines (physicalLines (writeLines written)) = pieces.map FoldedLine.line := by
  obtain ⟨added, same, thinned⟩ := lines_foldedLines cut {}
  rw [physicalLines_written cut clean ended, unfoldedLines, same]
  exact thinned_filled (fun line member => (clean line member).1) thinned

theorem entry_line {e : Entry} (sound : e.Sound) {line : Text} (member : line ∈ e.lines) :
    line ≠ [] ∧ lineFeed ∉ line ∧ carriageReturn ∉ line := by
  rcases List.mem_cons.mp member with rfl | later
  · decide
  · rcases List.mem_append.mp later with inFields | last
    · obtain ⟨f, _, rfl⟩ := List.mem_map.mp inFields
      exact ⟨by simp [Field.line], line_clean sound.record f⟩
    · rw [List.mem_singleton.mp last]
      decide

def knownStatuses : List (String × EventStatus) :=
  [("CONFIRMED", .confirmed), ("TENTATIVE", .tentative), ("CANCELED", .canceled)]

/-- The raw event has exactly the fields of the record. -/
structure Matches (e : Entry) (re : RawEvent) : Prop where
  uid : re.ev.uid = e.record.uid
  summary : re.ev.summary = e.record.summary
  description : re.ev.description = e.record.description
  location : re.ev.location = e.record.location
  status : ∀ known ∈ knownStatuses, toUpper e.record.status = text known.1 → re.ev.status = known.2

theorem readStatus_known : ∀ known ∈ knownStatuses, ∀ value, toUpper value = text known.1 →
    readStatus value = known.2 := by
  intro known member value spelled
  unfold readStatus
  simp only [knownStatuses, List.mem_cons, List.not_mem_nil, or_false] at member
  rcases member with rfl | rfl | rfl <;> rw [spelled] <;> decide

theorem setAll_matches {e : Entry} (sound : e.Sound) : Matches e (setAll e.record e.order) where
  uid := setAll_holds e.record (sound.complete .uid)
  summary := setAll_holds e.record (sound.complete .summary)
  description := setAll_holds e.record (sound.complete .description)
  location := setAll_holds e.record (sound.complete .location)
  status known member spelled :=
    (setAll_holds e.record (sound.complete .status)).trans (readStatus_known known member _ spelled)

/-- Records that are written as VEVENTs, folded anywhere and with either line break, are read
back one by one with their fields. -/
theorem collectRawEvents_written (zone : SystemZone) (tz : TimezoneResolver) {entries : List Entry}
    {pieces : List FoldedLine} {lines : List (Text × Bool)} (sound : ∀ e ∈ entries, e.Sound)
    (cut : ∀ f ∈ pieces, f.Sound) (whole : pieces.map FoldedLine.line = entries.flatMap Entry.lines)
    (written : lines.map Prod.fst = pieces.flatMap FoldedLine.physical) :
    ∃ raws, collectRawEvents zone tz (unfoldContent (writeLines lines)) = .ok raws ∧
      List.Forall₂ Matches entries raws := by
  have clean : ∀ line ∈ pieces.map FoldedLine.line, line ≠ [] ∧ lineFeed ∉ line ∧ carriageReturn ∉ line := by
    intro line member
    rw [whole] at member
    obtain ⟨e, inside, inEntry⟩ := List.mem_flatMap.mp member
    exact entry_line (sound e inside) inEntry
  have unfolded : getlines lineFeed (unfoldContent (writeLines lines)) = entries.flatMap Entry.lines := by
    rw [unfoldContent_lines, ← whole]
    exact unfoldedLines_written cut clean written
  refine ⟨_, collect_entries sound unfolded, ?_⟩
  rw [List.forall₂_map_right_iff, List.forall₂_same]
  exact fun e member => setAll_matches (sound e member)

def awkward : Entry where
  record :=
    { uid := text "a:b;c"
      summary := text "BEGIN:VEVENT, \\n"
      description := text "one\ntwo; three"
      location := []
      status := text "Tentative" }
  order := [.status, .location, .summary, .uid, .description]

/-- Its lines, with the summary in three pieces and the others whole. -/
def awkwardPieces : List FoldedLine :=
  [⟨text "BEGIN:VEVENT", []⟩, ⟨text "STATUS:Tentative", []⟩, ⟨text "LOCATION:", []⟩,
    ⟨text "SUM", [(byte ' ', text "MARY:BEGIN:VEVENT\\"), (byte '\t', text ", \\\\n")]⟩,
    ⟨text "UID:a:b;c", []⟩, ⟨text "DESCRIPTION:one\\ntwo\\; three", []⟩, ⟨text "END:VEVENT", []⟩]

theorem awkward_sound : awkward.Sound where
  record := ⟨by decide, fun f => ⟨by cases f <;> decide +kernel, by cases f <;> decide +kernel⟩,
    fun f => by cases f <;> decide +kernel, by decide +kernel⟩
  complete f := by cases f <;> decide

theorem collectRawEvents_written_awkward :
    ∃ raws, collectRawEvents (.fixed 0) ∅ (unfoldContent (writeLines
        ((awkwardPieces.flatMap FoldedLine.physical).map (fun line => (line, true))))) = .ok raws ∧
      List.Forall₂ Matches [awkward] raws :=
  collectRawEvents_written (.fixed 0) ∅ (List.forall_mem_singleton.mpr awkward_sound)
    (show ∀ f ∈ awkwardPieces, f.Sound by decide +kernel) (by decide +kernel)
    (by rw [List.map_map]; exact List.map_id _)

end DivoomDev.Ics.RoundTrip
