import DivoomDev.Library.Bytes

/-! The text helpers of the calendar parser: trimming, TEXT unescaping, line unfolding and
the split of a content line into its name, parameters and value. -/

namespace DivoomDev.Ics.TextUtils
open DivoomDev.Library.Bytes

def lineFeed : UInt8 := 10
def carriageReturn : UInt8 := 13

def isBlank (c : UInt8) : Bool :=
  c == byte ' ' || c == byte '\t' || c == carriageReturn || c == lineFeed

def trim (s : Text) : Text := strip isBlank s

def upperByte (c : UInt8) : UInt8 := if 97 ≤ c.toNat ∧ c.toNat ≤ 122 then c - 32 else c

def toUpper (s : Text) : Text := s.map upperByte

/-- TEXT unescaping. A backslash in front of any other byte, or at the end, is kept. -/
def unescape : Text → Text
  | [] => []
  | [c] => [c]
  | c :: d :: rest =>
      if c = byte '\\' then
        if d = byte 'n' ∨ d = byte 'N' then lineFeed :: unescape rest
        else if d = byte ',' ∨ d = byte ';' ∨ d = byte '\\' then d :: unescape rest
        else c :: unescape (d :: rest)
      else c :: unescape (d :: rest)

/-- The carriage return that `std::getline` leaves on a line is popped. -/
def dropCarriageReturn (line : Text) : Text :=
  if line.getLast? = some carriageReturn then line.dropLast else line

theorem trim_dropCarriageReturn (line : Text) : trim (dropCarriageReturn line) = trim line := by
  unfold dropCarriageReturn
  split_ifs with ends
  · obtain ⟨front, rfl⟩ := List.getLast?_eq_some_iff.mp ends
    rw [List.dropLast_concat]
    exact (strip_append (by decide) front).symm
  · rfl

/-- One pass of the loop in `unfold`: the text so far, extended by one physical line. -/
def unfoldLine (lines physical : Text) : Text :=
  match dropCarriageReturn physical with
  | [] => lines ++ [lineFeed]
  | c :: rest =>
      if c = byte ' ' ∨ c = byte '\t' then
        -- a continuation takes the line break and its own first blank away
        (if lines.getLast? = some lineFeed then lines.dropLast else lines) ++ rest
      else
        (if lines ≠ [] ∧ lines.getLast? ≠ some lineFeed then lines ++ [lineFeed] else lines) ++
          ((c :: rest) ++ [lineFeed])

/-- The source's `unfold`. -/
def unfoldContent (content : Text) : Text := (getlines lineFeed content).foldl unfoldLine []

/-- Name in upper case, parameters and value of a content line; three empty texts when the
line has no colon. The first colon ends the parameters, quoted or not. -/
def splitIcsLine (line : Text) : Text × Text × Text :=
  match line.idxOf? (byte ':') with
  | none => ([], [], [])
  | some colonPos =>
      let left := line.take colonPos
      let value := line.drop (colonPos + 1)
      match left.idxOf? (byte ';') with
      | some semiPos => (toUpper (left.take semiPos), left.drop (semiPos + 1), value)
      | none => (toUpper left, [], value)

example : unescape (text "a\\nb\\,c\\x\\") = text "a\nb,c\\x\\" := by decide

example : unfoldContent (text "SUMMARY:Team\r\n  Sync\r\nUID:1") = text "SUMMARY:Team Sync\nUID:1\n" := by
  decide

example : splitIcsLine (text "dtstart;TZID=Europe/Moscow:20260904T100000") =
    (text "DTSTART", text "TZID=Europe/Moscow", text "20260904T100000") := by decide

end DivoomDev.Ics.TextUtils
