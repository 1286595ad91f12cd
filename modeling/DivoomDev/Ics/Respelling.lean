import DivoomDev.Ics.Unfolding

/-! Spellings of a calendar that differ in the case of letters. Where the content lines of a text
are spelled in another way, there is a text that is folded like it and has the other lines. -/

namespace DivoomDev.Ics.Respelling
open DivoomDev.Library.Bytes TextUtils Unfolding

/-! ## Texts up to the case of their letters -/

theorem upperByte_eq_iff {mark : UInt8} (low : mark.toNat < 65) (c : UInt8) : upperByte c = mark ↔ c = mark := by
  unfold upperByte
  split_ifs with lower
  · have apart : (c - 32).toNat = c.toNat - 32 := by
      rw [UInt8.toNat_sub_of_le c 32 (UInt8.le_iff_toNat_le.mpr (show 32 ≤ c.toNat by omega))]
      rfl
    constructor
    · intro same
      rw [← same] at low
      omega
    · intro same
      rw [same] at lower
      omega
  · rfl

theorem toUpper_append (s t : Text) : toUpper (s ++ t) = toUpper s ++ toUpper t := List.map_append

theorem toUpper_eq_nil {s : Text} : toUpper s = [] ↔ s = [] := List.map_eq_nil_iff

theorem toUpper_split {s front back : Text} (same : toUpper s = toUpper (front ++ back)) :
    ∃ front' back', s = front' ++ back' ∧ toUpper front' = toUpper front ∧ toUpper back' = toUpper back := by
  rw [toUpper_append] at same
  exact List.map_eq_append_iff.mp same

theorem toUpper_mark {s rest : Text} {mark : UInt8} (low : mark.toNat < 65)
    (same : toUpper s = toUpper (mark :: rest)) : ∃ rest', s = mark :: rest' ∧ toUpper rest' = toUpper rest := by
  obtain ⟨c, rest', rfl, first, others⟩ := List.map_eq_cons_iff.mp same
  have isMark := (upperByte_eq_iff low mark).mpr rfl
  rw [isMark, upperByte_eq_iff low] at first
  exact ⟨rest', by rw [first], others⟩

theorem head?_mark {s t : Text} {mark : UInt8} (low : mark.toNat < 65) (same : toUpper s = toUpper t)
    (starts : s.head? = some mark) : t.head? = some mark := by
  obtain ⟨rest, rfl⟩ := List.head?_eq_some_iff.mp starts
  obtain ⟨rest', rfl, _⟩ := toUpper_mark low same.symm
  rfl

theorem isContinuation_respelled {s t : Text} (same : toUpper s = toUpper t) :
    IsContinuation s ↔ IsContinuation t := by
  have blank : (byte ' ').toNat < 65 := by decide
  have tab : (byte '\t').toNat < 65 := by decide
  exact ⟨fun given => given.imp (head?_mark blank same) (head?_mark tab same),
    fun given => given.imp (head?_mark blank same.symm) (head?_mark tab same.symm)⟩

/-! ## Lines -/

/-- Any spelling of the lines of a text is that of the lines of a spelling of the text. -/
theorem exists_getlines {s : Text} {lines : List Text}
    (same : lines.map toUpper = (getlines lineFeed s).map toUpper) :
    ∃ s', toUpper s' = toUpper s ∧ getlines lineFeed s' = lines := by
  have low : lineFeed.toNat < 65 := by decide
  induction s generalizing lines with
  | nil => exact ⟨[], rfl, (List.map_eq_nil_iff.mp same).symm⟩
  | cons c rest ih =>
    by_cases ends : c = lineFeed
    · rw [getlines, if_pos ends, List.map_cons] at same
      obtain ⟨first, others, rfl, empty, later⟩ := List.map_eq_cons_iff.mp same
      obtain ⟨rest', spelled, read⟩ := ih later
      refine ⟨c :: rest', congrArg (upperByte c :: ·) spelled, ?_⟩
      rw [getlines, if_pos ends, read, toUpper_eq_nil.mp empty]
    · have other {d : UInt8} (letter : upperByte d = upperByte c) : d ≠ lineFeed := by
        intro isFeed
        rw [isFeed, (upperByte_eq_iff low lineFeed).mpr rfl] at letter
        exact ends ((upperByte_eq_iff low c).mp letter.symm)
      rw [getlines, if_neg ends] at same
      cases below : getlines lineFeed rest with
      | nil =>
        rw [below] at same
        obtain ⟨first, others, rfl, letters, none⟩ := List.map_eq_cons_iff.mp same
        obtain ⟨d, empty, rfl, letter, nothing⟩ := List.map_eq_cons_iff.mp letters
        obtain ⟨rest', spelled, read⟩ :=
          ih (show ([] : List Text).map toUpper = (getlines lineFeed rest).map toUpper by rw [below])
        refine ⟨d :: rest', by rw [toUpper, List.map_cons, letter]; exact congrArg _ spelled, ?_⟩
        rw [getlines, if_neg (other letter), read, List.map_eq_nil_iff.mp nothing, List.map_eq_nil_iff.mp none]
      | cons line more =>
        rw [below] at same
        obtain ⟨first, others, rfl, letters, later⟩ := List.map_eq_cons_iff.mp same
        obtain ⟨d, tail, rfl, letter, spelledTail⟩ := List.map_eq_cons_iff.mp letters
        have both : (tail :: others).map toUpper = (getlines lineFeed rest).map toUpper := by
          rw [below, List.map_cons, List.map_cons, later]
          exact congrArg (· :: _) spelledTail
        obtain ⟨rest', spelled, read⟩ := ih both
        refine ⟨d :: rest', by rw [toUpper, List.map_cons, letter]; exact congrArg _ spelled, ?_⟩
        rw [getlines, if_neg (other letter), read]

theorem exists_dropCarriageReturn {line shown : Text} (same : toUpper shown = toUpper (dropCarriageReturn line)) :
    ∃ line', toUpper line' = toUpper line ∧ dropCarriageReturn line' = shown := by
  have low : carriageReturn.toNat < 65 := by decide
  unfold dropCarriageReturn at same
  split_ifs at same with ends
  · obtain ⟨front, rfl⟩ := List.getLast?_eq_some_iff.mp ends
    rw [List.dropLast_concat] at same
    refine ⟨shown ++ [carriageReturn], by rw [toUpper_append, toUpper_append, same], ?_⟩
    simp [dropCarriageReturn]
  · refine ⟨shown, same, if_neg fun endsShown => ends ?_⟩
    obtain ⟨front, rfl⟩ := List.getLast?_eq_some_iff.mp endsShown
    obtain ⟨front', back', rfl, _, last⟩ := toUpper_split same.symm
    obtain ⟨rest', rfl, none⟩ := toUpper_mark low last
    rw [toUpper_eq_nil.mp none]
    simp

theorem exists_map_dropCarriageReturn {lines shown : List Text}
    (same : shown.map toUpper = (lines.map dropCarriageReturn).map toUpper) :
    ∃ lines' : List Text, lines'.map toUpper = lines.map toUpper ∧
      lines'.map dropCarriageReturn = shown := by
  induction lines generalizing shown with
  | nil => exact ⟨[], rfl, (List.map_eq_nil_iff.mp same).symm⟩
  | cons line rest ih =>
    obtain ⟨first, others, rfl, now, later⟩ := List.map_eq_cons_iff.mp same
    obtain ⟨line', spelledLine, cut⟩ := exists_dropCarriageReturn now
    obtain ⟨rest', spelledRest, cuts⟩ := ih later
    exact ⟨line' :: rest', by rw [List.map_cons, List.map_cons, spelledLine, spelledRest],
      by rw [List.map_cons, cut, cuts]⟩

/-- The physical lines of a text, in any spelling. -/
theorem exists_physicalLines {content : Text} {physical : List Text}
    (same : physical.map toUpper = (physicalLines content).map toUpper) :
    ∃ content', toUpper content' = toUpper content ∧ physicalLines content' = physical := by
  obtain ⟨lines', spelled, cut⟩ := exists_map_dropCarriageReturn same
  obtain ⟨content', letters, read⟩ := exists_getlines spelled
  exact ⟨content', letters, by rw [physicalLines, read, cut]⟩

/-! ## Unfolding -/

/-- Two states of the unfolding that differ in the case of letters. -/
structure SameLetters (u u' : Unfolded) : Prop where
  done : u'.done.map toUpper = u.done.map toUpper
  current : toUpper u'.current = toUpper u.current

/-- The lines that are read from a state, in any spelling, are read from a spelling of the state. -/
theorem exists_lines {u : Unfolded} {lines : List Text} (same : lines.map toUpper = u.lines.map toUpper) :
    ∃ u', SameLetters u u' ∧ u'.lines = lines := by
  rw [Unfolded.lines, List.map_append] at same
  obtain ⟨done, back, rfl, spelled, last⟩ := List.map_eq_append_iff.mp same
  by_cases closed : u.current = []
  · rw [if_pos closed] at last
    refine ⟨{ done := done }, ⟨spelled, by rw [closed]⟩, ?_⟩
    rw [List.map_eq_nil_iff.mp last]
    rfl
  · rw [if_neg closed] at last
    obtain ⟨current, none, rfl, letters, nothing⟩ := List.map_eq_cons_iff.mp last
    have filled : current ≠ [] := fun empty => closed (toUpper_eq_nil.mp (by rw [← letters, empty]; rfl))
    refine ⟨{ done := done, current := current }, ⟨spelled, letters⟩, ?_⟩
    rw [Unfolded.lines, if_neg filled, List.map_eq_nil_iff.mp nothing]

/-- A spelling of the state behind a continuation comes from spellings of the state before and the
line. -/
theorem exists_continuation {u : Unfolded} {c : UInt8} {rest : Text} (continues : IsContinuation (c :: rest))
    {done : List Text} {current : Text} (same : SameLetters (u.line (c :: rest)) ⟨done, current⟩) :
    ∃ u' line', SameLetters u u' ∧ toUpper line' = toUpper (c :: rest) ∧ u'.line line' = ⟨done, current⟩ := by
  obtain ⟨spelled, letters⟩ := same
  have again (rest' : Text) : IsContinuation (c :: rest') :=
    (isContinuation_cons c rest').mpr ((isContinuation_cons c rest).mp continues)
  by_cases closed : u.current = []
  · simp only [Unfolded.line, if_pos continues, if_pos closed] at spelled letters
    obtain ⟨last', rest', rfl, spelledLast, spelledRest⟩ := toUpper_split letters
    have spelledLine : toUpper (c :: rest') = toUpper (c :: rest) := congrArg (upperByte c :: ·) spelledRest
    rcases List.eq_nil_or_concat u.done with empty | ⟨front, last, same⟩
    · rw [empty] at spelled spelledLast
      rw [List.map_eq_nil_iff.mp spelled, toUpper_eq_nil.mp spelledLast]
      refine ⟨{}, c :: rest', ⟨by rw [empty], by rw [closed]⟩, spelledLine, ?_⟩
      simp [Unfolded.line, again]
    · rw [same, List.concat_eq_append] at spelled spelledLast
      simp only [List.dropLast_concat, List.getLast?_concat, Option.getD_some] at spelled spelledLast
      refine ⟨{ done := done ++ [last'] }, c :: rest', ⟨?_, by rw [closed]⟩, spelledLine, ?_⟩
      · rw [same, List.concat_eq_append, List.map_append, List.map_append, spelled, List.map_singleton,
          spelledLast, List.map_singleton]
      · simp [Unfolded.line, again]
  · simp only [Unfolded.line, if_pos continues, if_neg closed] at spelled letters
    obtain ⟨open', rest', rfl, spelledOpen, spelledRest⟩ := toUpper_split letters
    have filled : open' ≠ [] := fun empty => closed (toUpper_eq_nil.mp (by rw [← spelledOpen, empty]; rfl))
    refine ⟨{ done := done, current := open' }, c :: rest', ⟨spelled, spelledOpen⟩,
      congrArg (upperByte c :: ·) spelledRest, ?_⟩
    simp [Unfolded.line, again, filled]

theorem exists_line (u : Unfolded) (line : Text) {next : Unfolded} (same : SameLetters (u.line line) next) :
    ∃ u' line', SameLetters u u' ∧ toUpper line' = toUpper line ∧ u'.line line' = next := by
  obtain ⟨done, current⟩ := next
  cases line with
  | nil =>
    obtain ⟨spelled, letters⟩ := same
    simp only [Unfolded.line, List.map_append] at spelled letters
    obtain ⟨front, back, rfl, spelledFront, last⟩ := List.map_eq_append_iff.mp spelled
    obtain ⟨open', none, rfl, spelledOpen, nothing⟩ := List.map_eq_cons_iff.mp last
    refine ⟨{ done := front, current := open' }, [], ⟨spelledFront, spelledOpen⟩, rfl, ?_⟩
    rw [List.map_eq_nil_iff.mp nothing, toUpper_eq_nil.mp letters]
    rfl
  | cons c rest =>
    by_cases continues : IsContinuation (c :: rest)
    · exact exists_continuation continues same
    · obtain ⟨spelled, letters⟩ := same
      simp only [Unfolded.line, if_neg continues, List.map_append] at spelled letters
      obtain ⟨front, back, rfl, spelledFront, last⟩ := List.map_eq_append_iff.mp spelled
      obtain ⟨line', none, rfl, spelledLine, nothing⟩ := List.map_eq_cons_iff.mp last
      obtain ⟨u', sameState, read⟩ := exists_lines spelledFront
      obtain ⟨c', rest', rfl, _, _⟩ := List.map_eq_cons_iff.mp spelledLine
      have starts : ¬IsContinuation (c' :: rest') := fun given =>
        continues ((isContinuation_respelled spelledLine).mp given)
      refine ⟨u', c' :: rest', sameState, spelledLine, ?_⟩
      rw [List.map_eq_nil_iff.mp nothing, toUpper_eq_nil.mp letters]
      simp [Unfolded.line, starts, read]

theorem exists_foldl_line (physical : List Text) {next : Unfolded}
    (same : SameLetters (physical.foldl Unfolded.line {}) next) :
    ∃ physical' : List Text, physical'.map toUpper = physical.map toUpper ∧
      physical'.foldl Unfolded.line {} = next := by
  induction physical using List.reverseRecOn generalizing next with
  | nil =>
    obtain ⟨done, current⟩ := next
    have noLines : done = [] := List.map_eq_nil_iff.mp same.done
    have nothingOpen : current = [] := toUpper_eq_nil.mp same.current
    exact ⟨[], rfl, by rw [noLines, nothingOpen]; rfl⟩
  | append_singleton front line ih =>
    rw [List.foldl_concat] at same
    obtain ⟨u', line', sameState, spelled, read⟩ := exists_line _ line same
    obtain ⟨front', spelledFront, readFront⟩ := ih sameState
    refine ⟨front' ++ [line'], ?_, by rw [List.foldl_concat, readFront, read]⟩
    rw [List.map_append, List.map_append, spelledFront, List.map_singleton, List.map_singleton, spelled]

/-- The content lines of a calendar text, as the scan of its components reads them. -/
def contentLines (content : Text) : List Text := getlines lineFeed (unfoldContent content)

/-- Any spelling of the content lines of a text is that of the content lines of a spelling of it. -/
theorem exists_contentLines {content : Text} {lines : List Text}
    (same : lines.map toUpper = (contentLines content).map toUpper) :
    ∃ content', toUpper content' = toUpper content ∧ contentLines content' = lines := by
  rw [contentLines, unfoldContent_lines] at same
  obtain ⟨next, sameState, read⟩ := exists_lines same
  obtain ⟨physical, spelled, unfolded⟩ := exists_foldl_line _ sameState
  obtain ⟨content', letters, cut⟩ := exists_physicalLines spelled
  exact ⟨content', letters, by rw [contentLines, unfoldContent_lines, cut, unfolded, read]⟩

end DivoomDev.Ics.Respelling
