import DivoomDev.Library.Bytes

/-! Text made of parts with a separator between them. A search whose pattern neither holds the
separator nor looks behind it sees each part on its own. -/

namespace DivoomDev.Library.Separated
open DivoomDev.Library.Bytes

/-- Next to one delimiter for each line stand those in the lines. -/
theorem count_joinLines (delimiter : UInt8) (lines : List Text) :
    (joinLines delimiter lines).count delimiter = lines.length + (lines.map (List.count delimiter)).sum := by
  induction lines with
  | nil => rfl
  | cons line lines ih =>
    rw [joinLines, List.flatMap_cons, ← joinLines, List.count_append, List.count_append, ih,
      List.count_singleton_self, List.length_cons, List.map_cons, List.sum_cons]
    omega

/-- Split at the delimiter, the lines are there and then what stands behind the last of them. -/
theorem splitOn_joinLines {delimiter : UInt8} {lines : List Text} (whole : ∀ line ∈ lines, delimiter ∉ line)
    {last : Text} (lastWhole : delimiter ∉ last) :
    (joinLines delimiter lines ++ last).splitOn delimiter = lines ++ [last] := by
  induction lines with
  | nil => exact List.splitOn_eq_singleton lastWhole
  | cons line lines ih =>
    obtain ⟨first, others⟩ := List.forall_mem_cons.mp whole
    have front : joinLines delimiter (line :: lines) ++ last =
        line ++ delimiter :: (joinLines delimiter lines ++ last) := by simp [joinLines]
    rw [front, List.splitOn_append_cons_self, List.splitOn_eq_singleton first, ih others]
    rfl

theorem intercalate_cons (separator : UInt8) (first : Text) (rest : List Text) :
    [separator].intercalate (first :: rest) = first ++ rest.flatMap (separator :: ·) := by
  induction rest generalizing first with
  | nil => simp
  | cons second rest ih =>
    rw [List.intercalate_cons_cons, ih second, List.flatMap_cons]
    simp

theorem mem_intercalate {c separator : UInt8} (different : c ≠ separator) (parts : List Text) :
    c ∈ [separator].intercalate parts ↔ ∃ part ∈ parts, c ∈ part := by
  cases parts with
  | nil => simp
  | cons first rest =>
    rw [intercalate_cons]
    simp [different]

/-- Parts without the separator are read back, where the last one is not empty. -/
theorem getlines_intercalate {separator : UInt8} {parts : List Text} (whole : ∀ part ∈ parts, separator ∉ part)
    (last : ∀ part ∈ parts.getLast?, part ≠ []) :
    getlines separator ([separator].intercalate parts) = parts := by
  induction parts with
  | nil => rfl
  | cons first rest ih =>
    obtain ⟨firstWhole, others⟩ := List.forall_mem_cons.mp whole
    cases rest with
    | nil =>
      rw [List.intercalate_singleton]
      exact getlines_last firstWhole (last first rfl)
    | cons second rest =>
      rw [List.intercalate_cons_cons, List.append_assoc, List.singleton_append, getlines_cons firstWhole,
        ih others (by simpa using last)]

/-- Behind a delimiter the lines begin anew. -/
theorem getlines_append {delimiter : UInt8} (front rest : Text) :
    getlines delimiter (front ++ delimiter :: rest) =
      getlines delimiter (front ++ [delimiter]) ++ getlines delimiter rest := by
  induction front with
  | nil => simp [getlines]
  | cons c front ih =>
    by_cases same : c = delimiter
    · simp only [List.cons_append, getlines, if_pos same, ih]
    · have some : getlines delimiter (front ++ [delimiter]) ≠ [] := by
        cases front with
        | nil => simp [getlines]
        | cons d front =>
          rw [List.cons_append, getlines]
          split_ifs
          · simp
          · split <;> simp
      simp only [List.cons_append, getlines, if_neg same, ih]
      cases lines : getlines delimiter (front ++ [delimiter]) with
      | nil => exact absurd lines some
      | cons line lines => rfl

/-! ## Searching -/

variable {α : Type} {separator : UInt8}

theorem isPrefixOf_separated {pattern : Text} (absent : separator ∉ pattern) (s rest : Text) :
    pattern.isPrefixOf (s ++ separator :: rest) = pattern.isPrefixOf s := by
  induction pattern generalizing s with
  | nil => simp
  | cons c pattern ih =>
    have different : c ≠ separator := (List.ne_of_not_mem_cons absent).symm
    cases s with
    | nil => simp [List.isPrefixOf, different]
    | cons d s =>
      rw [List.cons_append, List.isPrefixOf, List.isPrefixOf, ih (List.not_mem_of_not_mem_cons absent)]

theorem find_separated {pattern : Text} (filled : pattern ≠ []) (absent : separator ∉ pattern) (s rest : Text) :
    find pattern (s ++ separator :: rest) =
      (find pattern s).or ((find pattern rest).map (· + (s.length + 1))) := by
  induction s with
  | nil =>
    have here : pattern.isPrefixOf (separator :: rest) = false := by
      have empty := isPrefixOf_separated absent [] rest
      rw [List.nil_append] at empty
      rw [empty]
      cases pattern with
      | nil => exact absurd rfl filled
      | cons c pattern => rfl
    simp only [List.nil_append, find, here, Bool.false_eq_true, if_false, if_neg filled, Option.none_or,
      List.length_nil, Nat.zero_add]
  | cons c s ih =>
    rw [List.cons_append, find, find, ← List.cons_append, isPrefixOf_separated absent, ih]
    split_ifs
    · rfl
    · cases find pattern s with
      | some pos => rfl
      | none =>
        cases find pattern rest with
        | none => rfl
        | some pos =>
          simp only [Option.map_some, Option.map_none, Option.none_or, List.length_cons, Option.some.injEq]
          omega

/-- What matches at a position depends on the text in front of the next separator only. -/
def Stops (separator : UInt8) (matchAt : Text → Option α) : Prop :=
  ∀ s rest, matchAt (s ++ separator :: rest) = matchAt s

theorem search_separated {matchAt : Text → Option α} (stops : Stops separator matchAt) (s rest : Text) :
    search matchAt (s ++ separator :: rest) = (search matchAt s).or (search matchAt rest) := by
  induction s with
  | nil =>
    have here : matchAt (separator :: rest) = matchAt [] := stops [] rest
    simp only [List.nil_append, search, here]
  | cons c s ih =>
    have here : matchAt (c :: (s ++ separator :: rest)) = matchAt (c :: s) := stops (c :: s) rest
    rw [List.cons_append, search, here, ih, search, Option.or_assoc]

theorem search_intercalate {matchAt : Text → Option α} (stops : Stops separator matchAt)
    (silent : matchAt [] = none) (parts : List Text) :
    search matchAt ([separator].intercalate parts) = parts.findSome? (search matchAt) := by
  induction parts with
  | nil => exact silent
  | cons first rest ih =>
    cases rest with
    | nil =>
      rw [List.intercalate_singleton, List.findSome?_cons]
      cases search matchAt first <;> rfl
    | cons second rest =>
      rw [List.intercalate_cons_cons, List.append_assoc, List.singleton_append, search_separated stops, ih]
      simp only [List.findSome?_cons]
      cases search matchAt first <;> rfl

/-- Where at most one item gives a value, the order of the items does not matter. -/
theorem findSome?_perm {β : Type} {f : α → Option β} {items items' : List α} (perm : items.Perm items')
    (once : ∀ a ∈ items, ∀ b ∈ items, (f a).isSome → (f b).isSome → a = b) :
    items.findSome? f = items'.findSome? f := by
  cases found : items'.findSome? f with
  | none =>
    rw [List.findSome?_eq_none_iff] at found ⊢
    exact fun a member => found a (perm.subset member)
  | some value =>
    obtain ⟨b, memberB, given⟩ := List.exists_of_findSome?_eq_some found
    have isSome : (items.findSome? f).isSome = true :=
      List.findSome?_isSome_iff.mpr ⟨b, perm.symm.subset memberB, by simp [given]⟩
    obtain ⟨other, first⟩ := Option.isSome_iff_exists.mp isSome
    obtain ⟨a, memberA, here⟩ := List.exists_of_findSome?_eq_some first
    have same : a = b :=
      once a memberA b (perm.symm.subset memberB) (by simp [here]) (by simp [given])
    rw [first, ← here, same, given]

end DivoomDev.Library.Separated
