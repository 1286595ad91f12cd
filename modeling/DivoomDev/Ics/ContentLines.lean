import DivoomDev.Library.Separated
import DivoomDev.Ics.TextUtils

/-! Content lines with parameters, whose values may be quoted, and what the split of a line
makes of them. -/

namespace DivoomDev.Ics.ContentLines
open DivoomDev.Library.Bytes DivoomDev.Library.Separated TextUtils

def isNameByte (c : UInt8) : Bool :=
  (65 ≤ c.toNat && c.toNat ≤ 90) || (97 ≤ c.toNat && c.toNat ≤ 122) || isDigit c || c == byte '-'

structure IsName (s : Text) : Prop where
  filled : s ≠ []
  bytes : ∀ c ∈ s, isNameByte c = true

inductive ParamValue where
  | plain (s : Text) (safe : ∀ c ∈ s, c ∉ [byte '"', byte ';', byte ':', byte ','])
  | quoted (s : Text) (safe : byte '"' ∉ s)

def ParamValue.text : ParamValue → Text
  | plain s _ => s
  | quoted s _ => byte '"' :: s ++ [byte '"']

structure Param where
  name : Text
  named : IsName name
  first : ParamValue
  more : List ParamValue

def Param.values (p : Param) : List ParamValue := p.first :: p.more

def Param.text (p : Param) : Text :=
  p.name ++ byte '=' :: [byte ','].intercalate (p.values.map ParamValue.text)

structure ContentLine where
  name : Text
  named : IsName name
  params : List Param := []
  value : Text

namespace ContentLine

/-- The text between the first semicolon and the colon that ends the parameters. -/
def paramText (line : ContentLine) : Text := [byte ';'].intercalate (line.params.map Param.text)

def head (line : ContentLine) : Text :=
  line.name ++ line.params.flatMap (fun p => byte ';' :: p.text)

def text (line : ContentLine) : Text := line.head ++ byte ':' :: line.value

end ContentLine

/-! ## Bytes of a line -/

theorem IsName.not_mem {name : Text} (named : IsName name) {c : UInt8} (mark : isNameByte c = false) :
    c ∉ name := fun inside => absurd (named.bytes c inside) (Bool.eq_false_iff.mp mark)

theorem colon_mem_param {p : Param} :
    byte ':' ∈ p.text ↔ ∃ v ∈ p.values, byte ':' ∈ v.text := by
  have name : byte ':' ∉ p.name := p.named.not_mem (by decide)
  have equals : byte ':' ≠ byte '=' := by decide
  have comma : byte ':' ≠ byte ',' := by decide
  simp only [Param.text, List.mem_append, name, false_or, List.mem_cons, equals, mem_intercalate comma,
    List.mem_map, exists_exists_and_eq_and]

/-- The parameters written with a semicolon in front of each. -/
theorem params_flatMap (first : Param) (rest : List Param) :
    (first :: rest).flatMap (fun p => byte ';' :: p.text) =
      byte ';' :: [byte ';'].intercalate ((first :: rest).map Param.text) := by
  rw [List.map_cons, intercalate_cons, List.flatMap_map, List.flatMap_cons, List.cons_append]

theorem colon_mem_paramText {line : ContentLine} :
    byte ':' ∈ line.paramText ↔ ∃ p ∈ line.params, ∃ v ∈ p.values, byte ':' ∈ v.text := by
  have semicolon : byte ':' ≠ byte ';' := by decide
  simp only [ContentLine.paramText, mem_intercalate semicolon, List.mem_map, exists_exists_and_eq_and,
    colon_mem_param]

/-! ## The split -/

/-- The parameters that the split returns end at the first colon of the line. -/
theorem colon_not_mem_params (s : Text) : byte ':' ∉ (splitIcsLine s).2.1 := by
  unfold splitIcsLine
  cases colon : s.idxOf? (byte ':') with
  | none => exact List.not_mem_nil
  | some colonPos =>
    have before : byte ':' ∉ s.take colonPos := by
      intro inside
      obtain ⟨i, below, same⟩ := List.mem_take_iff_getElem.mp inside
      obtain ⟨_, _, first⟩ := List.idxOf?_eq_some_iff.mp colon
      exact first i (by omega) same
    simp only
    split
    · exact fun inside => before (List.mem_of_mem_drop inside)
    · exact List.not_mem_nil

/-- A line whose first colon is the one behind its parameters is split there. -/
theorem splitIcsLine_text {line : ContentLine} (unquoted : byte ':' ∉ line.paramText) :
    splitIcsLine line.text = (toUpper line.name, line.paramText, line.value) := by
  have nameColon : byte ':' ∉ line.name := line.named.not_mem (by decide)
  have nameSemicolon : byte ';' ∉ line.name := line.named.not_mem (by decide)
  have split (head : Text) (absent : byte ':' ∉ head) (same : line.head = head) :
      line.text.idxOf? (byte ':') = some head.length ∧ line.text.take head.length = head ∧
        line.text.drop (head.length + 1) = line.value := by
    rw [ContentLine.text, same]
    refine ⟨idxOf?_append absent _, List.take_left, ?_⟩
    rw [← List.drop_drop, List.drop_left]
    rfl
  cases written : line.params with
  | nil =>
    have head : line.head = line.name := by rw [ContentLine.head, written, List.flatMap_nil, List.append_nil]
    obtain ⟨colon, front, back⟩ := split line.name nameColon head
    have noSemicolon : line.name.idxOf? (byte ';') = none := by
      simpa [List.idxOf?_eq_none_iff] using nameSemicolon
    simp only [splitIcsLine, colon, front, noSemicolon, back, ContentLine.paramText, written, List.map_nil]
    rfl
  | cons first rest =>
    have head : line.head = line.name ++ byte ';' :: line.paramText := by
      rw [ContentLine.head, ContentLine.paramText, written, params_flatMap]
    have absent : byte ':' ∉ line.name ++ byte ';' :: line.paramText := by
      simp only [List.mem_append, nameColon, List.mem_cons, unquoted, or_false, false_or]
      decide
    obtain ⟨colon, front, back⟩ := split _ absent head
    have afterName : (line.name ++ byte ';' :: line.paramText).drop (line.name.length + 1) =
        line.paramText := by
      rw [← List.drop_drop, List.drop_left]
      rfl
    simp only [splitIcsLine, colon, front, idxOf?_append nameSemicolon, List.take_left, afterName, back]

/-- A content line is split into its parts exactly where no parameter value holds a colon. -/
theorem splitIcsLine_iff (line : ContentLine) :
    splitIcsLine line.text = (toUpper line.name, line.paramText, line.value) ↔
      ∀ p ∈ line.params, ∀ v ∈ p.values, byte ':' ∉ v.text := by
  have colon : byte ':' ∉ line.paramText ↔ ∀ p ∈ line.params, ∀ v ∈ p.values, byte ':' ∉ v.text := by
    simp only [colon_mem_paramText, not_exists, not_and]
  rw [← colon]
  apply Iff.intro
  · intro same inside
    have absent := colon_not_mem_params line.text
    rw [same] at absent
    exact absent inside
  · exact splitIcsLine_text

/-- DTSTART;TZID="(UTC+03:00) Moscow":20260904T100000 -/
def outlookLine : ContentLine where
  name := text "DTSTART"
  named := ⟨by decide +kernel, by decide +kernel⟩
  params := [{
    name := text "TZID"
    named := ⟨by decide +kernel, by decide +kernel⟩
    first := .quoted (text "(UTC+03:00) Moscow") (by decide +kernel)
    more := [] }]
  value := text "20260904T100000"

/-- The colon of a quoted time zone name is taken for the one that ends the parameters. -/
theorem quoted_colon_splits :
    ¬∀ line : ContentLine,
      splitIcsLine line.text = (toUpper line.name, line.paramText, line.value) := by
  intro always
  exact absurd (always outlookLine) (by decide +kernel)

end DivoomDev.Ics.ContentLines
