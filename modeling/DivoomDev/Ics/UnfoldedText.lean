import DivoomDev.Ics.RoundTrip
import DivoomDev.Library.Separated

/-! Unfolding as the inverse of folding, on the text that `unfold` returns. -/

namespace DivoomDev.Ics.UnfoldedText
open DivoomDev.Library.Bytes DivoomDev.Library.Separated TextUtils Unfolding Folding RoundTrip

/-- A line that a writer may fold. -/
structure IsLogical (line : Text) : Prop where
  filled : line ≠ []
  noFeed : lineFeed ∉ line
  noReturn : carriageReturn ∉ line
  starts : ¬IsContinuation line

/-- The pieces make up the line; the first holds something of it, and a blank stands in front of
each of the others. -/
structure FoldsInto (line : Text) (f : FoldedLine) : Prop where
  filled : f.first ≠ []
  blanks : ∀ piece ∈ f.rest, piece.1 = byte ' ' ∨ piece.1 = byte '\t'
  whole : f.line = line

theorem FoldsInto.sound {line : Text} {f : FoldedLine} (folds : FoldsInto line f) (logical : IsLogical line) :
    f.Sound where
  starts := by
    have starts := logical.starts
    obtain ⟨c, tail, same⟩ := List.exists_cons_of_ne_nil folds.filled
    rw [← folds.whole, FoldedLine.line, same, List.cons_append, isContinuation_cons] at starts
    rwa [same, isContinuation_cons]
  blanks := folds.blanks
  between _ := folds.filled

theorem sound_of_foldsInto {lines : List Text} (logical : ∀ line ∈ lines, IsLogical line)
    {folded : List FoldedLine} (folds : List.Forall₂ FoldsInto lines folded) : ∀ f ∈ folded, f.Sound := by
  induction folds with
  | nil => exact fun _ member => nomatch member
  | cons first _ ih =>
    obtain ⟨here, others⟩ := List.forall_mem_cons.mp logical
    exact List.forall_mem_cons.mpr ⟨first.sound here, ih others⟩

theorem lines_of_foldsInto {lines : List Text} {folded : List FoldedLine}
    (folds : List.Forall₂ FoldsInto lines folded) : folded.map FoldedLine.line = lines := by
  induction folds with
  | nil => rfl
  | cons first _ ih => rw [List.map_cons, first.whole, ih]

/-- Split at its line feeds, an unfolded text has the lines that are read from it, and an empty
one more where it ends with a line feed. -/
theorem splitOn_unfoldContent (content : Text) :
    (unfoldContent content).splitOn lineFeed = unfoldedLines (physicalLines content) ∨
      (unfoldContent content).splitOn lineFeed = unfoldedLines (physicalLines content) ++ [[]] := by
  obtain ⟨same, whole⟩ := unfoldContent_text content
  rw [same, unfoldedLines, Unfolded.text, splitOn_joinLines whole.done whole.current, Unfolded.lines]
  split_ifs with closed
  · rw [closed, List.append_nil]
    exact .inr rfl
  · exact .inl rfl

/-- Lines that are folded anywhere, also between two blanks, and ended by either line break are
unfolded to the same lines; the last may be left without its line feed. -/
theorem unfoldContent_folded {lines : List Text} (logical : ∀ line ∈ lines, IsLogical line)
    {folded : List FoldedLine} (folds : List.Forall₂ FoldsInto lines folded) {written : List (Text × Bool)}
    (ended : written.map Prod.fst = folded.flatMap FoldedLine.physical) :
    (unfoldContent (writeLines written)).splitOn lineFeed = lines ∨
      (unfoldContent (writeLines written)).splitOn lineFeed = lines ++ [[]] := by
  have clean : ∀ line ∈ folded.map FoldedLine.line, line ≠ [] ∧ lineFeed ∉ line ∧ carriageReturn ∉ line := by
    rw [lines_of_foldsInto folds]
    exact fun line member =>
      ⟨(logical line member).filled, (logical line member).noFeed, (logical line member).noReturn⟩
  have back := unfoldedLines_written (sound_of_foldsInto logical folds) clean ended
  rw [lines_of_foldsInto folds] at back
  rw [← back]
  exact splitOn_unfoldContent _

/-- A line in four pieces, one of them empty, and one that is whole. -/
def foldedSync : List FoldedLine :=
  [⟨text "SUM", [(byte ' ', text "MARY:Team"), (byte '\t', []), (byte ' ', text " Sync")]⟩, ⟨text "UID:1", []⟩]

theorem unfoldContent_folded_sync :
    (unfoldContent (text "SUM\r\n MARY:Team\n\t\r\n  Sync\nUID:1\r\n")).splitOn lineFeed =
        [text "SUMMARY:Team Sync", text "UID:1"] ∨
      (unfoldContent (text "SUM\r\n MARY:Team\n\t\r\n  Sync\nUID:1\r\n")).splitOn lineFeed =
        [text "SUMMARY:Team Sync", text "UID:1"] ++ [[]] :=
  unfoldContent_folded
    (List.forall_mem_cons.mpr ⟨⟨by decide, by decide, by decide, by decide⟩,
      List.forall_mem_singleton.mpr ⟨by decide, by decide, by decide, by decide⟩⟩)
    (show List.Forall₂ FoldsInto _ foldedSync from
      .cons ⟨by decide, by decide, by decide⟩ (.cons ⟨by decide, by decide, by decide⟩ .nil))
    (show ([(text "SUM", true), (text " MARY:Team", false), (text "\t", true), (text "  Sync", false),
        (text "UID:1", true)] : List (Text × Bool)).map Prod.fst = _ by decide)

end DivoomDev.Ics.UnfoldedText
