import DivoomDev.Ics.Folding

/-! VTIMEZONE blocks with their STANDARD and DAYLIGHT sub-components in any order, and the offset
that is remembered for a TZID. -/

namespace DivoomDev.Ics.SubComponents
open DivoomDev.Library.Bytes TextUtils Timezone

/-! ## Calendars with VTIMEZONE blocks -/

/-- The prefixes that the scan for time zones looks for, other than TZOFFSETTO. -/
def isMark (t : Text) : Bool :=
  ["BEGIN:VTIMEZONE", "END:VTIMEZONE", "BEGIN:STANDARD", "BEGIN:DAYLIGHT"].any (fun s => startsWith s t)

inductive Kind where
  | standard
  | daylight
  deriving DecidableEq, Repr

def Kind.begin : Kind → Text
  | standard => text "BEGIN:STANDARD"
  | daylight => text "BEGIN:DAYLIGHT"

def Kind.end' : Kind → Text
  | standard => text "END:STANDARD"
  | daylight => text "END:DAYLIGHT"

/-- A sub-component of a VTIMEZONE, with the properties between its delimiters. -/
structure SubComponent where
  kind : Kind
  properties : List Text
  plain : ∀ line ∈ properties, isMark (trim line) = false ∧ startsWith "TZID:" (trim line) = false

def SubComponent.lines (s : SubComponent) : List Text := s.kind.begin :: s.properties ++ [s.kind.end']

/-- What stands in a VTIMEZONE: its own properties and its sub-components. An offset is given in
sub-components only. -/
inductive ZoneItem where
  | property (line : Text) (plain : isMark (trim line) = false ∧ startsWith "TZOFFSETTO:" (trim line) = false)
  | sub (s : SubComponent)

namespace ZoneItem

def lines : ZoneItem → List Text
  | property line _ => [line]
  | sub s => s.lines

def property? : ZoneItem → Option Text
  | property line _ => some line
  | sub _ => none

def sub? : ZoneItem → Option SubComponent
  | property _ _ => none
  | sub s => some s

end ZoneItem

structure Zone where
  items : List ZoneItem

namespace Zone

def properties (z : Zone) : List Text := z.items.filterMap ZoneItem.property?

def subs (z : Zone) : List SubComponent := z.items.filterMap ZoneItem.sub?

def lines (z : Zone) : List Text :=
  text "BEGIN:VTIMEZONE" :: z.items.flatMap ZoneItem.lines ++ [text "END:VTIMEZONE"]

end Zone

inductive CalendarPart where
  | outside (line : Text) (plain : startsWith "BEGIN:VTIMEZONE" (trim line) = false)
  | zone (z : Zone)

namespace CalendarPart

def lines : CalendarPart → List Text
  | outside line _ => [line]
  | zone z => z.lines

def zone? : CalendarPart → Option Zone
  | outside _ _ => none
  | zone z => some z

end CalendarPart

def zones (parts : List CalendarPart) : List Zone := parts.filterMap CalendarPart.zone?

def calendarLines (parts : List CalendarPart) : List Text := parts.flatMap CalendarPart.lines

/-- The same properties in the same order, and the same sub-components in another order. -/
structure SubsPermuted (z z' : Zone) : Prop where
  properties : z.properties = z'.properties
  subs : z.subs.Perm z'.subs

inductive PartPermuted : CalendarPart → CalendarPart → Prop where
  | outside {line plain} : PartPermuted (.outside line plain) (.outside line plain)
  | zone {z z'} (permuted : SubsPermuted z z') : PartPermuted (.zone z) (.zone z')

/-! ## What the scan reads -/

def tzid? (line : Text) : Option Text :=
  if startsWith "TZID:" (trim line) then some ((trim line).drop 5) else none

def tzoffset? (line : Text) : Option Int :=
  if startsWith "TZOFFSETTO:" (trim line) then some (parseTzoffset ((trim line).drop 11)) else none

/-- The offset that a STANDARD gives, where it has one. -/
def SubComponent.offset? (s : SubComponent) : Option Int :=
  match s.kind with
  | .standard => (s.properties.filterMap tzoffset?).getLast?
  | .daylight => none

namespace Zone

def tzid (z : Zone) : Text := (z.properties.filterMap tzid?).getLast?.getD []

/-- The offsets that the STANDARDs give. -/
def offsets (z : Zone) : List Int := z.subs.filterMap SubComponent.offset?

def offset (z : Zone) : Int := z.offsets.getLast?.getD kUnknownOffset

end Zone

theorem isMark_false {t : Text} (plain : isMark t = false) :
    startsWith "BEGIN:VTIMEZONE" t = false ∧ startsWith "END:VTIMEZONE" t = false ∧
      startsWith "BEGIN:STANDARD" t = false ∧ startsWith "BEGIN:DAYLIGHT" t = false := by
  simpa [isMark] using plain

section Scan
variable (known : TimezoneResolver) (inStd : Bool) (tzid : Text) (offset : Int)

/-- A line of a sub-component: only an offset in a STANDARD leaves a trace. -/
theorem scan_subLine {line : Text}
    (plain : isMark (trim line) = false ∧ startsWith "TZID:" (trim line) = false) :
    VtimezoneScan.line ⟨known, true, inStd, tzid, offset⟩ line =
      ⟨known, true, inStd, tzid, if inStd then (tzoffset? line).getD offset else offset⟩ := by
  obtain ⟨begins, ends, standard, daylight⟩ := isMark_false plain.1
  unfold tzoffset?
  cases inStd <;> cases given : startsWith "TZOFFSETTO:" (trim line) <;>
    simp [VtimezoneScan.line, trim_dropCarriageReturn, begins, ends, standard, daylight, plain.2, given]

theorem scan_property {line : Text}
    (plain : isMark (trim line) = false ∧ startsWith "TZOFFSETTO:" (trim line) = false) :
    VtimezoneScan.line ⟨known, true, inStd, tzid, offset⟩ line =
      ⟨known, true, inStd, (tzid? line).getD tzid, offset⟩ := by
  obtain ⟨begins, ends, standard, daylight⟩ := isMark_false plain.1
  unfold tzid?
  cases given : startsWith "TZID:" (trim line) <;>
    simp [VtimezoneScan.line, trim_dropCarriageReturn, begins, ends, standard, daylight, plain.2, given]

theorem getLast?_filterMap_cons {α β : Type} (f : α → Option β) (a : α) (rest : List α) (default : β) :
    ((a :: rest).filterMap f).getLast?.getD default = (rest.filterMap f).getLast?.getD ((f a).getD default) := by
  cases given : f a with
  | none => rw [List.filterMap_cons_none given, Option.getD_none]
  | some b =>
    rw [List.filterMap_cons_some given, List.getLast?_cons, Option.getD_some, Option.getD_some]

theorem scan_subLines {properties : List Text}
    (plain : ∀ line ∈ properties, isMark (trim line) = false ∧ startsWith "TZID:" (trim line) = false) :
    properties.foldl VtimezoneScan.line ⟨known, true, inStd, tzid, offset⟩ =
      ⟨known, true, inStd, tzid,
        if inStd then (properties.filterMap tzoffset?).getLast?.getD offset else offset⟩ := by
  induction properties generalizing offset with
  | nil => simp
  | cons line rest ih =>
    obtain ⟨first, others⟩ := List.forall_mem_cons.mp plain
    rw [List.foldl_cons, scan_subLine known inStd tzid offset first, ih _ others, getLast?_filterMap_cons]
    cases inStd <;> rfl

theorem scan_sub (s : SubComponent) :
    ∃ inStd', s.lines.foldl VtimezoneScan.line ⟨known, true, inStd, tzid, offset⟩ =
      ⟨known, true, inStd', tzid, s.offset?.getD offset⟩ := by
  have closes : isMark (trim s.kind.end') = false ∧ startsWith "TZID:" (trim s.kind.end') = false ∧
      tzoffset? s.kind.end' = none := by
    cases s.kind <;> decide +kernel
  have opens : VtimezoneScan.line ⟨known, true, inStd, tzid, offset⟩ s.kind.begin =
      ⟨known, true, decide (s.kind = .standard), tzid, offset⟩ := by
    cases s.kind <;> rfl
  refine ⟨decide (s.kind = .standard), ?_⟩
  rw [SubComponent.lines, List.cons_append, List.foldl_cons, opens, List.foldl_append,
    scan_subLines known _ tzid offset s.plain, List.foldl_cons, List.foldl_nil,
    scan_subLine known _ tzid _ ⟨closes.1, closes.2.1⟩, closes.2.2, Option.getD_none, ite_self,
    SubComponent.offset?]
  cases s.kind <;> rfl

theorem scan_items (items : List ZoneItem) :
    ∃ inStd', (items.flatMap ZoneItem.lines).foldl VtimezoneScan.line ⟨known, true, inStd, tzid, offset⟩ =
      ⟨known, true, inStd', ((items.filterMap ZoneItem.property?).filterMap tzid?).getLast?.getD tzid,
        ((items.filterMap ZoneItem.sub?).filterMap SubComponent.offset?).getLast?.getD offset⟩ := by
  induction items generalizing inStd tzid offset with
  | nil => exact ⟨inStd, rfl⟩
  | cons item rest ih =>
    rw [List.flatMap_cons, List.foldl_append]
    cases item with
    | property line plain =>
      obtain ⟨inStd', later⟩ := ih inStd ((tzid? line).getD tzid) offset
      refine ⟨inStd', ?_⟩
      rw [ZoneItem.lines, List.foldl_cons, List.foldl_nil, scan_property known inStd tzid offset plain, later,
        ← getLast?_filterMap_cons]
      rfl
    | sub s =>
      obtain ⟨inStd', within⟩ := scan_sub known inStd tzid offset s
      obtain ⟨inStd'', later⟩ := ih inStd' tzid (s.offset?.getD offset)
      refine ⟨inStd'', ?_⟩
      rw [ZoneItem.lines, within, later, ← getLast?_filterMap_cons]
      rfl

end Scan

/-- What the end of a block adds to what is known. -/
def record (known : TimezoneResolver) (z : Zone) : TimezoneResolver :=
  if z.tzid ≠ [] ∧ z.offset ≠ kUnknownOffset then known.insert z.tzid z.offset else known

theorem scan_zone (scan : VtimezoneScan) (z : Zone) :
    z.lines.foldl VtimezoneScan.line scan = ⟨record scan.vtzOffsets z, false, false, z.tzid, z.offset⟩ := by
  have opens : VtimezoneScan.line scan (text "BEGIN:VTIMEZONE") =
      ⟨scan.vtzOffsets, true, false, [], kUnknownOffset⟩ := rfl
  obtain ⟨inStd, within⟩ := scan_items scan.vtzOffsets false [] kUnknownOffset z.items
  rw [Zone.lines, List.cons_append, List.foldl_cons, opens, List.foldl_append, within]
  rfl

theorem scan_calendar (parts : List CalendarPart) {scan : VtimezoneScan} (outside : scan.inTz = false) :
    ((calendarLines parts).foldl VtimezoneScan.line scan).vtzOffsets =
      (zones parts).foldl record scan.vtzOffsets := by
  induction parts generalizing scan with
  | nil => rfl
  | cons part rest ih =>
    rw [calendarLines, List.flatMap_cons, List.foldl_append]
    cases part with
    | outside line plain =>
      have same : scan.line line = scan := by
        simp [VtimezoneScan.line, trim_dropCarriageReturn, plain, outside]
      rw [CalendarPart.lines, List.foldl_cons, List.foldl_nil, same]
      exact ih outside
    | zone z =>
      rw [CalendarPart.lines, scan_zone]
      exact ih rfl

/-! ## The offset of a TZID -/

/-- The text of the lines, each with a carriage return in front of its line feed or none. -/
def calendarText (crlf : Bool) (parts : List CalendarPart) : Text :=
  joinLines lineFeed ((calendarLines parts).map (· ++ if crlf then [carriageReturn] else []))

/-- No line holds the byte that ends it. -/
def Whole (parts : List CalendarPart) : Prop := ∀ line ∈ calendarLines parts, lineFeed ∉ line

instance (parts : List CalendarPart) : Decidable (Whole parts) := List.decidableBAll _ _

theorem line_ending (scan : VtimezoneScan) (crlf : Bool) (line : Text) :
    scan.line (line ++ if crlf then [carriageReturn] else []) = scan.line line := by
  cases crlf with
  | false => simp
  | true =>
    have same : trim (line ++ [carriageReturn]) = trim line := strip_append (by decide) line
    simp only [if_true, VtimezoneScan.line, trim_dropCarriageReturn, same]

theorem collectVtimezones_text (crlf : Bool) {parts : List CalendarPart} (whole : Whole parts) :
    collectVtimezones (calendarText crlf parts) = (zones parts).foldl record ∅ := by
  have separate : ∀ line ∈ (calendarLines parts).map (· ++ if crlf then [carriageReturn] else []), lineFeed ∉ line := by
    intro line inside
    obtain ⟨bare, member, rfl⟩ := List.mem_map.mp inside
    rw [List.mem_append, not_or]
    exact ⟨whole bare member, by cases crlf <;> decide⟩
  have lines := getlines_joinLines separate []
  rw [List.append_nil, getlines, List.append_nil] at lines
  rw [collectVtimezones, calendarText, lines, List.foldl_map]
  simp only [line_ending]
  exact scan_calendar parts rfl

/-- The block decides what is known of the TZID, unless its offset is not known. -/
def Zone.For (z : Zone) (tzid : Text) : Prop := z.tzid ≠ [] ∧ z.tzid = tzid

instance (z : Zone) (tzid : Text) : Decidable (z.For tzid) := inferInstanceAs (Decidable (_ ∧ _))

/-- The offset of a TZID, from the last block to the first. -/
def lastOffset (tzid : Text) : List Zone → Int
  | [] => staticOffset tzid
  | z :: earlier => if z.For tzid ∧ z.offset ≠ kUnknownOffset then z.offset else lastOffset tzid earlier

theorem offsetHours_zones (tzid : Text) (blocks : List Zone) :
    offsetHours (blocks.foldl record ∅) tzid = lastOffset tzid blocks.reverse := by
  induction blocks using List.reverseRecOn with
  | nil => simp [offsetHours, lastOffset]
  | append_singleton front z ih =>
    rw [List.foldl_append, List.foldl_cons, List.foldl_nil, List.reverse_append, List.reverse_singleton,
      List.singleton_append, lastOffset, ← ih]
    by_cases known : z.tzid ≠ [] ∧ z.offset ≠ kUnknownOffset
    · rw [record, if_pos known]
      by_cases same : z.tzid = tzid
      · subst same
        simp [offsetHours, Zone.For, known]
      · simp [offsetHours, Zone.For, same, Std.ExtTreeMap.getElem?_insert]
    · have notDue : ¬(z.For tzid ∧ z.offset ≠ kUnknownOffset) := fun both => known ⟨both.1.1, both.2⟩
      rw [record, if_neg known, if_neg notDue]

/-! ## The offsets of other orders -/

/-- What a block may be remembered with, in one order of its sub-components or another. -/
def Zone.possible (z : Zone) : List Int := if z.offsets = [] then [kUnknownOffset] else z.offsets

/-- The offsets that a TZID may have, from the last block to the first: a known one of a block, or
one of the earlier blocks where the block may be left without. -/
def MayHave (tzid : Text) : List Zone → Int → Prop
  | [], offset => offset = staticOffset tzid
  | z :: earlier, offset =>
      if z.For tzid then
        (offset ∈ z.possible ∧ offset ≠ kUnknownOffset) ∨ (kUnknownOffset ∈ z.possible ∧ MayHave tzid earlier offset)
      else MayHave tzid earlier offset

theorem offset_possible (z : Zone) : z.offset ∈ z.possible := by
  rw [Zone.offset, Zone.possible]
  split_ifs with none
  · simp [none]
  · obtain ⟨front, last, same⟩ := (List.eq_nil_or_concat z.offsets).resolve_left none
    simp [same]

theorem SubsPermuted.tzid {z z' : Zone} (permuted : SubsPermuted z z') : z'.tzid = z.tzid := by
  rw [Zone.tzid, Zone.tzid, permuted.properties]

theorem SubsPermuted.possible {z z' : Zone} (permuted : SubsPermuted z z') (offset : Int) :
    offset ∈ z'.possible ↔ offset ∈ z.possible := by
  have perm : z.offsets.Perm z'.offsets := permuted.subs.filterMap _
  have empty : z'.offsets = [] ↔ z.offsets = [] := by
    rw [← List.length_eq_zero_iff, ← perm.length_eq, List.length_eq_zero_iff]
  simp only [Zone.possible, empty]
  split_ifs
  · rfl
  · exact perm.mem_iff.symm

/-- Every order of the sub-components leads to an offset that the TZID may have. -/
theorem mayHave_lastOffset {tzid : Text} {blocks blocks' : List Zone}
    (permuted : List.Forall₂ SubsPermuted blocks blocks') : MayHave tzid blocks (lastOffset tzid blocks') := by
  induction permuted with
  | nil => rfl
  | @cons z z' rest rest' first _ ih =>
    have same : z'.For tzid ↔ z.For tzid := by rw [Zone.For, Zone.For, first.tzid]
    have possible : z'.offset ∈ z.possible := (first.possible _).mp (offset_possible z')
    rw [MayHave, lastOffset]
    by_cases forTzid : z.For tzid
    · rw [if_pos forTzid]
      by_cases known : z'.offset = kUnknownOffset
      · rw [if_neg (fun both => both.2 known)]
        exact .inr ⟨known ▸ possible, ih⟩
      · rw [if_pos ⟨same.mpr forTzid, known⟩]
        exact .inl ⟨possible, known⟩
    · rw [if_neg forTzid, if_neg (fun both => forTzid (same.mp both.1))]
      exact ih

/-- The properties of a VTIMEZONE with other sub-components behind them. -/
def withSubs (z : Zone) (subs : List SubComponent) : Zone where
  items := z.items.filter (fun item => item.sub?.isNone) ++ subs.map ZoneItem.sub

theorem withSubs_items (z : Zone) (subs : List SubComponent) :
    (withSubs z subs).properties = z.properties ∧ (withSubs z subs).subs = subs := by
  have properties (items : List ZoneItem) : (items.filter (fun item => item.sub?.isNone)).filterMap
        ZoneItem.property? = items.filterMap ZoneItem.property? ∧
      (items.filter (fun item => item.sub?.isNone)).filterMap ZoneItem.sub? = [] := by
    induction items with
    | nil => exact ⟨rfl, rfl⟩
    | cons item rest ih =>
      cases item with
      | property line plain => exact ⟨congrArg (line :: ·) ih.1, ih.2⟩
      | sub s => exact ih
  have behind : (subs.map ZoneItem.sub).filterMap ZoneItem.property? = [] ∧
      (subs.map ZoneItem.sub).filterMap ZoneItem.sub? = subs := by
    induction subs with
    | nil => exact ⟨rfl, rfl⟩
    | cons s rest ih => exact ⟨ih.1, congrArg (s :: ·) ih.2⟩
  rw [Zone.properties, Zone.subs, withSubs, List.filterMap_append, List.filterMap_append, (properties z.items).1,
    (properties z.items).2, behind.1, behind.2, List.append_nil, List.nil_append]
  exact ⟨rfl, rfl⟩

/-- A STANDARD may be put behind the other sub-components, and its offset is then remembered. -/
theorem exists_offset {z : Zone} {offset : Int} (possible : offset ∈ z.possible) :
    ∃ z', SubsPermuted z z' ∧ z'.offset = offset := by
  rw [Zone.possible] at possible
  split_ifs at possible with none
  · refine ⟨z, ⟨rfl, .refl _⟩, ?_⟩
    rw [List.mem_singleton.mp possible, Zone.offset, none]
    rfl
  · obtain ⟨s, member, given⟩ := List.mem_filterMap.mp possible
    obtain ⟨before, after, same⟩ := List.append_of_mem member
    obtain ⟨properties, subs⟩ := withSubs_items z (before ++ after ++ [s])
    refine ⟨withSubs z (before ++ after ++ [s]), ⟨properties.symm, ?_⟩, ?_⟩
    · rw [subs, same]
      exact List.perm_middle.trans (List.perm_append_singleton s (before ++ after)).symm
    · rw [Zone.offset, Zone.offsets, subs, List.filterMap_append, List.filterMap_cons_some given,
        List.filterMap_nil, List.getLast?_concat, Option.getD_some]

/-- Every offset that the TZID may have comes about in some order. -/
theorem exists_lastOffset {tzid : Text} {blocks : List Zone} {offset : Int} (mayHave : MayHave tzid blocks offset) :
    ∃ blocks', List.Forall₂ SubsPermuted blocks blocks' ∧ lastOffset tzid blocks' = offset := by
  induction blocks with
  | nil => exact ⟨[], .nil, mayHave.symm⟩
  | cons z earlier ih =>
    rw [MayHave] at mayHave
    split_ifs at mayHave with forTzid
    · have stays {z' : Zone} (permuted : SubsPermuted z z') : z'.For tzid := by
        rw [Zone.For, permuted.tzid]
        exact forTzid
      have unchanged : List.Forall₂ SubsPermuted earlier earlier :=
        List.forall₂_same.mpr (fun _ _ => ⟨rfl, .refl _⟩)
      rcases mayHave with ⟨possible, known⟩ | ⟨possible, later⟩
      · obtain ⟨z', permuted, same⟩ := exists_offset possible
        refine ⟨z' :: earlier, .cons permuted unchanged, ?_⟩
        rw [lastOffset, if_pos ⟨stays permuted, same ▸ known⟩, same]
      · obtain ⟨z', permuted, unknown⟩ := exists_offset possible
        obtain ⟨earlier', others, same⟩ := ih later
        refine ⟨z' :: earlier', .cons permuted others, ?_⟩
        rw [lastOffset, if_neg (fun both => both.2 unknown), same]
    · obtain ⟨earlier', others, same⟩ := ih mayHave
      refine ⟨z :: earlier', .cons ⟨rfl, .refl _⟩ others, ?_⟩
      rw [lastOffset, if_neg (fun both => forTzid both.1), same]

/-! ## The calendar in other orders -/

theorem zones_permuted {parts parts' : List CalendarPart} (permuted : List.Forall₂ PartPermuted parts parts') :
    List.Forall₂ SubsPermuted (zones parts) (zones parts') := by
  induction permuted with
  | nil => exact .nil
  | cons first _ ih =>
    cases first with
    | outside => exact ih
    | zone same => exact .cons same ih

theorem exists_parts {parts : List CalendarPart} {blocks : List Zone}
    (permuted : List.Forall₂ SubsPermuted (zones parts) blocks) :
    ∃ parts', List.Forall₂ PartPermuted parts parts' ∧ zones parts' = blocks := by
  induction parts generalizing blocks with
  | nil =>
    cases permuted
    exact ⟨[], .nil, rfl⟩
  | cons part rest ih =>
    cases part with
    | outside line plain =>
      obtain ⟨rest', others, same⟩ := ih permuted
      exact ⟨.outside line plain :: rest', .cons .outside others, same⟩
    | zone z =>
      cases permuted with
      | cons first later =>
        obtain ⟨rest', others, same⟩ := ih later
        exact ⟨.zone _ :: rest', .cons (.zone first) others, congrArg _ same⟩

theorem mem_zoneLines {z : Zone} {line : Text} : line ∈ z.lines ↔
    line = text "BEGIN:VTIMEZONE" ∨ line = text "END:VTIMEZONE" ∨ line ∈ z.properties ∨
      ∃ s ∈ z.subs, line ∈ s.lines := by
  have items : line ∈ z.items.flatMap ZoneItem.lines ↔ line ∈ z.properties ∨ ∃ s ∈ z.subs, line ∈ s.lines := by
    rw [Zone.properties, Zone.subs]
    induction z.items with
    | nil => simp
    | cons item rest ih =>
      rw [List.flatMap_cons, List.mem_append, ih]
      cases item with
      | property other plain => simp [ZoneItem.lines, ZoneItem.property?, ZoneItem.sub?, or_assoc]
      | sub s =>
        simp only [ZoneItem.lines, ZoneItem.property?, ZoneItem.sub?, List.filterMap_cons, List.mem_cons,
          exists_eq_or_imp]
        exact or_left_comm
  rw [Zone.lines, List.cons_append, List.mem_cons, List.mem_append, List.mem_singleton, items]
  exact or_congr_right or_comm

theorem mem_calendarLines {parts parts' : List CalendarPart} (permuted : List.Forall₂ PartPermuted parts parts')
    {line : Text} (inside : line ∈ calendarLines parts') : line ∈ calendarLines parts := by
  induction permuted with
  | nil => exact inside
  | @cons part part' rest rest' first _ ih =>
    rw [calendarLines, List.flatMap_cons, List.mem_append] at inside ⊢
    refine inside.imp ?_ ih
    intro here
    cases first with
    | outside => exact here
    | zone same =>
      rw [CalendarPart.lines, mem_zoneLines] at here ⊢
      rw [same.properties]
      simpa only [same.subs.mem_iff] using here

/-- Every order of the sub-components gives each TZID one offset exactly where the TZID may have
one offset only. -/
theorem offsetHours_permuted_iff (crlf : Bool) {parts : List CalendarPart} (whole : Whole parts) :
    (∀ parts', List.Forall₂ PartPermuted parts parts' → ∀ tzid,
        offsetHours (collectVtimezones (calendarText crlf parts')) tzid =
          offsetHours (collectVtimezones (calendarText crlf parts)) tzid) ↔
      ∀ tzid a b, MayHave tzid (zones parts).reverse a → MayHave tzid (zones parts).reverse b → a = b := by
  have read (parts' : List CalendarPart) (permuted : List.Forall₂ PartPermuted parts parts') (tzid : Text) :
      offsetHours (collectVtimezones (calendarText crlf parts')) tzid = lastOffset tzid (zones parts').reverse := by
    rw [collectVtimezones_text crlf (fun line inside => whole line (mem_calendarLines permuted inside)),
      offsetHours_zones]
  have unchanged : List.Forall₂ PartPermuted parts parts := by
    apply List.forall₂_same.mpr
    intro part _
    cases part with
    | outside line plain => exact .outside
    | zone z => exact .zone ⟨rfl, .refl _⟩
  apply Iff.intro
  · intro same
    have only {tzid : Text} {offset : Int} (mayHave : MayHave tzid (zones parts).reverse offset) :
        offset = offsetHours (collectVtimezones (calendarText crlf parts)) tzid := by
      obtain ⟨blocks, permuted, last⟩ := exists_lastOffset mayHave
      have forward := List.rel_reverse permuted
      rw [List.reverse_reverse] at forward
      obtain ⟨parts', others, zones'⟩ := exists_parts forward
      rw [← same parts' others tzid, read parts' others tzid, zones', List.reverse_reverse, last]
    intro tzid a b mayHaveA mayHaveB
    rw [only mayHaveA, only mayHaveB]
  · intro unique parts' permuted tzid
    rw [read parts' permuted tzid, read parts unchanged tzid]
    exact unique tzid _ _ (mayHave_lastOffset (List.rel_reverse (zones_permuted permuted)))
      (mayHave_lastOffset (List.rel_reverse (zones_permuted unchanged)))

def standard (offset : String) (plain : ∀ line ∈ [text offset],
    isMark (trim line) = false ∧ startsWith "TZID:" (trim line) = false) : ZoneItem :=
  .sub { kind := .standard, properties := [text offset], plain }

def zoneNamed (items : List ZoneItem) : CalendarPart :=
  .zone { items := .property (text "TZID:A") (by decide +kernel) :: items }

def summer : ZoneItem := standard "TZOFFSETTO:+0400" (by decide +kernel)
def winter : ZoneItem := standard "TZOFFSETTO:+0300" (by decide +kernel)

theorem offsetHours_permuted_iff_winter :
    (∀ parts', List.Forall₂ PartPermuted [zoneNamed [winter]] parts' → ∀ tzid,
        offsetHours (collectVtimezones (calendarText true parts')) tzid =
          offsetHours (collectVtimezones (calendarText true [zoneNamed [winter]])) tzid) ↔
      ∀ tzid a b, MayHave tzid (zones [zoneNamed [winter]]).reverse a →
        MayHave tzid (zones [zoneNamed [winter]]).reverse b → a = b :=
  offsetHours_permuted_iff true (by decide +kernel)

/-- Of two STANDARDs, the one that stands last gives the offset. -/
theorem last_standard_decides :
    ¬∀ (crlf : Bool) (parts parts' : List CalendarPart), Whole parts → List.Forall₂ PartPermuted parts parts' → ∀ tzid,
      offsetHours (collectVtimezones (calendarText crlf parts')) tzid =
        offsetHours (collectVtimezones (calendarText crlf parts)) tzid := by
  intro always
  have permuted : List.Forall₂ PartPermuted [zoneNamed [summer, winter]] [zoneNamed [winter, summer]] :=
    .cons (.zone ⟨rfl, .swap _ _ _⟩) .nil
  have same := always true _ _ (by decide +kernel) permuted (text "A")
  exact absurd same (by decide +kernel)

end DivoomDev.Ics.SubComponents
