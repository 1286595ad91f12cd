import DivoomDev.Ics.Pipeline

/-! Unfolding line by line. The text that `unfold` builds consists of finished lines and one
that may still be continued, and what a group of lines becomes does not depend on what stands
in front of it. -/

namespace DivoomDev.Ics.Unfolding
open DivoomDev.Library.Bytes TextUtils Pipeline

def physicalLines (content : Text) : List Text := (getlines lineFeed content).map dropCarriageReturn

def IsContinuation (line : Text) : Prop := line.head? = some (byte ' ') ∨ line.head? = some (byte '\t')

instance : DecidablePred IsContinuation := fun _ => inferInstanceAs (Decidable (_ ∨ _))

/-- The text so far: finished lines and what stands behind the last line break. -/
structure Unfolded where
  done : List Text := []
  current : Text := []
  deriving DecidableEq, Repr

namespace Unfolded

def text (u : Unfolded) : Text := joinLines lineFeed u.done ++ u.current

/-- The lines that are read from the text. -/
def lines (u : Unfolded) : List Text := u.done ++ if u.current = [] then [] else [u.current]

/-- One more physical line. An empty one ends the current line, or is a line of its own. -/
def line (u : Unfolded) : Text → Unfolded
  | [] => { done := u.done ++ [u.current] }
  | c :: rest =>
      if IsContinuation (c :: rest) then
        if u.current = [] then { done := u.done.dropLast, current := u.done.getLast?.getD [] ++ rest }
        else { u with current := u.current ++ rest }
      else { done := u.lines ++ [c :: rest] }

structure Whole (u : Unfolded) : Prop where
  done : ∀ line ∈ u.done, lineFeed ∉ line
  current : lineFeed ∉ u.current

end Unfolded

/-! ## The text that is built up -/

theorem isContinuation_cons (c : UInt8) (rest : Text) :
    IsContinuation (c :: rest) ↔ c = byte ' ' ∨ c = byte '\t' := by
  simp [IsContinuation]

theorem joinLines_getLast? {lines : List Text} (some : lines ≠ []) :
    (joinLines lineFeed lines).getLast? = .some lineFeed := by
  obtain ⟨front, last, rfl⟩ := (List.eq_nil_or_concat lines).resolve_left some
  simp [joinLines]

theorem text_getLast? {u : Unfolded} (whole : u.Whole) :
    u.text.getLast? = some lineFeed ↔ u.current = [] ∧ u.done ≠ [] := by
  unfold Unfolded.text
  by_cases closed : u.current = []
  · rw [closed, List.append_nil]
    by_cases empty : u.done = []
    · simp [empty, joinLines]
    · simp [joinLines_getLast? empty, empty]
  · rw [List.getLast?_append_of_ne_nil _ closed]
    apply Iff.intro
    · intro ends
      exact absurd (List.mem_of_getLast? ends) whole.current
    · intro given
      exact absurd given.1 closed

theorem text_eq_nil (u : Unfolded) : u.text = [] ↔ u.done = [] ∧ u.current = [] := by
  simp only [Unfolded.text, List.append_eq_nil_iff, joinLines, List.flatMap_eq_nil_iff]
  apply Iff.intro
  · intro given
    refine ⟨List.eq_nil_iff_forall_not_mem.mpr (fun line member => ?_), given.2⟩
    simpa using given.1 line member
  · intro given
    simp [given.1, given.2]

theorem text_reopen {u : Unfolded} (whole : u.Whole) :
    (if u.text.getLast? = some lineFeed then u.text.dropLast else u.text) =
      if u.current = [] then joinLines lineFeed u.done.dropLast ++ u.done.getLast?.getD [] else u.text := by
  by_cases closed : u.current = []
  · rw [if_pos closed]
    rcases List.eq_nil_or_concat u.done with empty | ⟨front, last, same⟩
    · have nothing : u.text = [] := (text_eq_nil u).mpr ⟨empty, closed⟩
      simp [nothing, empty, joinLines]
    · have ends := (text_getLast? whole).mpr ⟨closed, by simp [same]⟩
      rw [if_pos ends, Unfolded.text, closed, same]
      simp [joinLines]
  · rw [if_neg closed, if_neg (fun ends => closed ((text_getLast? whole).mp ends).1)]

theorem joinLines_lines (u : Unfolded) :
    joinLines lineFeed u.lines = if u.current = [] then u.text else u.text ++ [lineFeed] := by
  unfold Unfolded.lines Unfolded.text
  split_ifs with closed <;> simp [joinLines, closed]

theorem unfoldLine_text {u : Unfolded} (whole : u.Whole) (physical : Text) :
    unfoldLine u.text physical = (u.line (dropCarriageReturn physical)).text := by
  unfold unfoldLine
  cases dropCarriageReturn physical with
  | nil => simp [Unfolded.line, Unfolded.text, joinLines]
  | cons c rest =>
    simp only [Unfolded.line, isContinuation_cons]
    by_cases blank : c = byte ' ' ∨ c = byte '\t'
    · simp only [if_pos blank, text_reopen whole]
      split_ifs with closed <;> simp [Unfolded.text]
    · have opens : (u.text ≠ [] ∧ u.text.getLast? ≠ some lineFeed) ↔ u.current ≠ [] := by
        rw [Ne, Ne, text_getLast? whole, text_eq_nil]
        tauto
      have after : ({ done := u.lines ++ [c :: rest] } : Unfolded).text =
          joinLines lineFeed u.lines ++ (c :: rest ++ [lineFeed]) := by
        simp [Unfolded.text, joinLines]
      simp only [if_neg blank, opens, after, joinLines_lines]
      by_cases closed : u.current = [] <;> simp [closed]

theorem lines_whole {u : Unfolded} (whole : u.Whole) : ∀ line ∈ u.lines, lineFeed ∉ line := by
  intro line member
  rcases List.mem_append.mp member with finished | last
  · exact whole.done line finished
  · split_ifs at last
    · cases last
    · rw [List.mem_singleton.mp last]
      exact whole.current

theorem line_whole {u : Unfolded} (whole : u.Whole) {line : Text} (clean : lineFeed ∉ line) :
    (u.line line).Whole := by
  have last : lineFeed ∉ u.done.getLast?.getD [] := by
    cases found : u.done.getLast? with
    | none => simp
    | some last => exact whole.done last (List.mem_of_getLast? found)
  cases line with
  | nil =>
    refine ⟨fun line member => ?_, List.not_mem_nil⟩
    rcases List.mem_append.mp member with finished | same
    · exact whole.done line finished
    · exact List.mem_singleton.mp same ▸ whole.current
  | cons c rest =>
    have tail : lineFeed ∉ rest := List.not_mem_of_not_mem_cons clean
    simp only [Unfolded.line]
    split_ifs
    · refine ⟨fun line member => whole.done line (List.mem_of_mem_dropLast member), ?_⟩
      simp [last, tail]
    · exact ⟨whole.done, by simp [whole.current, tail]⟩
    · refine ⟨fun line member => ?_, List.not_mem_nil⟩
      rcases List.mem_append.mp member with old | new
      · exact lines_whole whole line old
      · exact List.mem_singleton.mp new ▸ clean

theorem getlines_text {u : Unfolded} (whole : u.Whole) : getlines lineFeed u.text = u.lines := by
  rw [Unfolded.text, getlines_joinLines whole.done, Unfolded.lines]
  congr 1
  split_ifs with closed
  · rw [closed]
    rfl
  · exact getlines_last whole.current closed

theorem not_mem_dropCarriageReturn {c : UInt8} {line : Text} (absent : c ∉ line) :
    c ∉ dropCarriageReturn line := by
  unfold dropCarriageReturn
  split_ifs
  · exact fun member => absent (List.mem_of_mem_dropLast member)
  · exact absent

theorem foldl_unfoldLine {lines : List Text} (clean : ∀ line ∈ lines, lineFeed ∉ line) {u : Unfolded}
    (whole : u.Whole) :
    lines.foldl unfoldLine u.text = ((lines.map dropCarriageReturn).foldl Unfolded.line u).text ∧
      ((lines.map dropCarriageReturn).foldl Unfolded.line u).Whole := by
  induction lines generalizing u with
  | nil => exact ⟨rfl, whole⟩
  | cons line rest ih =>
    obtain ⟨first, others⟩ := List.forall_mem_cons.mp clean
    rw [List.foldl_cons, List.map_cons, List.foldl_cons, unfoldLine_text whole]
    exact ih others (line_whole whole (not_mem_dropCarriageReturn first))

theorem unfoldContent_text (content : Text) :
    unfoldContent content = ((physicalLines content).foldl Unfolded.line {}).text ∧
      ((physicalLines content).foldl Unfolded.line {}).Whole := by
  have empty : ({} : Unfolded).Whole := ⟨by simp, List.not_mem_nil⟩
  exact foldl_unfoldLine (fun line member => not_mem_of_mem_getlines (s := content) member) empty

/-- The lines of an unfolded text, from the physical lines of the text as it came. -/
theorem unfoldContent_lines (content : Text) :
    getlines lineFeed (unfoldContent content) = ((physicalLines content).foldl Unfolded.line {}).lines := by
  obtain ⟨same, whole⟩ := unfoldContent_text content
  rw [same, getlines_text whole]

/-! ## Groups of lines -/

def unfoldedLines (physical : List Text) : List Text := (physical.foldl Unfolded.line {}).lines

theorem veventBlocks_eq (content : Text) :
    veventBlocks content = scanBlocks {} (unfoldedLines (physicalLines content)) := by
  rw [veventBlocks, unfoldContent_lines, unfoldedLines]

def OpensLine (physical : List Text) : Prop :=
  ∃ first rest, physical = first :: rest ∧ first ≠ [] ∧ ¬IsContinuation first

/-- The text has a first line that no continuation can take away. -/
def Unfolded.Grounded (u : Unfolded) : Prop :=
  (∃ first rest, u.done = first :: rest ∧ first ≠ []) ∨ (u.done = [] ∧ u.current ≠ [])

def Unfolded.behind (front : List Text) (u : Unfolded) : Unfolded := { u with done := front ++ u.done }

theorem behind_lines (front : List Text) (u : Unfolded) : (u.behind front).lines = front ++ u.lines :=
  List.append_assoc _ _ _

theorem line_grounded {u : Unfolded} (grounded : u.Grounded) (line : Text) : (u.line line).Grounded := by
  have opened (more : List Text) : ({ done := u.lines ++ more } : Unfolded).Grounded := by
    rcases grounded with ⟨first, rest, same, filled⟩ | ⟨empty, filled⟩
    · exact .inl ⟨first, _, by rw [Unfolded.lines, same, List.cons_append, List.cons_append], filled⟩
    · exact .inl ⟨u.current, more, by simp [Unfolded.lines, empty, filled], filled⟩
  cases line with
  | nil =>
    rcases grounded with ⟨first, rest, same, filled⟩ | ⟨empty, filled⟩
    · exact .inl ⟨first, rest ++ [u.current], by simp [Unfolded.line, same], filled⟩
    · exact .inl ⟨u.current, [], by simp [Unfolded.line, empty], filled⟩
  | cons c tail =>
    simp only [Unfolded.line]
    split_ifs with _ closed
    · obtain ⟨first, rest, same, filled⟩ := grounded.resolve_right (fun given => given.2 closed)
      cases rest with
      | nil => exact .inr ⟨by simp [same], by simp [same, filled]⟩
      | cons second rest => exact .inl ⟨first, (second :: rest).dropLast, by simp [same], filled⟩
    · rcases grounded with given | ⟨empty, _⟩
      · exact .inl given
      · exact .inr ⟨empty, by simp [closed]⟩
    · exact opened _

theorem line_behind {u : Unfolded} (grounded : u.Grounded) (front : List Text) (line : Text) :
    (u.behind front).line line = (u.line line).behind front := by
  cases line with
  | nil => simp [Unfolded.line, Unfolded.behind]
  | cons c tail =>
    simp only [Unfolded.line, behind_lines]
    split_ifs with continues closed behindClosed
    · have filled : u.done ≠ [] := fun empty =>
        grounded.elim (fun given => by simp [empty] at given) (fun given => given.2 behindClosed)
      simp [Unfolded.behind, List.dropLast_append_of_ne_nil filled, List.getLast?_append_of_ne_nil _ filled]
    · exact absurd closed behindClosed
    · exact absurd ‹u.current = []› closed
    · rfl
    · simp [Unfolded.behind]

theorem foldl_line_behind {u : Unfolded} (grounded : u.Grounded) (front physical : List Text) :
    physical.foldl Unfolded.line (u.behind front) = (physical.foldl Unfolded.line u).behind front := by
  induction physical generalizing u with
  | nil => rfl
  | cons line rest ih =>
    rw [List.foldl_cons, line_behind grounded, ih (line_grounded grounded line), List.foldl_cons]

/-- Groups that each begin with a line of their own are unfolded one by one. -/
theorem unfoldedLines_append (front : List Text) {back : List Text} (opens : OpensLine back) :
    unfoldedLines (front ++ back) = unfoldedLines front ++ unfoldedLines back := by
  obtain ⟨first, rest, rfl, filled, starts⟩ := opens
  obtain ⟨c, tail, rfl⟩ := List.exists_cons_of_ne_nil filled
  have alone (u : Unfolded) : u.line (c :: tail) = ({ done := [c :: tail] } : Unfolded).behind u.lines := by
    simp [Unfolded.line, starts, Unfolded.behind]
  have grounded : ({ done := [c :: tail] } : Unfolded).Grounded := .inl ⟨_, _, rfl, filled⟩
  unfold unfoldedLines
  rw [List.foldl_append, List.foldl_cons, List.foldl_cons, alone, alone, foldl_line_behind grounded,
    foldl_line_behind grounded, behind_lines, behind_lines]
  rfl

theorem unfoldedLines_flatMap {α : Type} {groups : List α} {physical : α → List Text}
    (opens : ∀ group ∈ groups, OpensLine (physical group)) :
    unfoldedLines (groups.flatMap physical) = groups.flatMap (fun group => unfoldedLines (physical group)) := by
  induction groups with
  | nil => rfl
  | cons group rest ih =>
    obtain ⟨first, others⟩ := List.forall_mem_cons.mp opens
    cases rest with
    | nil => simp
    | cons next rest =>
      have later : OpensLine ((next :: rest).flatMap physical) := by
        obtain ⟨line, lines, same, filled, starts⟩ := others next List.mem_cons_self
        exact ⟨line, lines ++ rest.flatMap physical, by rw [List.flatMap_cons, same, List.cons_append],
          filled, starts⟩
      rw [List.flatMap_cons, unfoldedLines_append _ later, ih others]
      rfl

end DivoomDev.Ics.Unfolding
