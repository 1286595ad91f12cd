import DivoomDev.Ics.Window

/-! Overrides of single occurrences by RECURRENCE-ID. -/

namespace DivoomDev.Ics.OverrideApplier
open DivoomDev.Library.Bytes Models Window

/-- `override_applier::index`: the overrides of each UID, in their order. -/
abbrev Index := Std.ExtTreeMap Text (List RawEvent)

def Index.add (idx : Index) (r : RawEvent) : Index :=
  if r.hasRecurrenceId then idx.insert r.ev.uid ((idx[r.ev.uid]?).getD [] ++ [r]) else idx

def buildIndex (raws : List RawEvent) : Index := raws.foldl Index.add ∅

/-- Whether some override of the UID carries this key, compared as text. -/
def isOverridden (idx : Index) (uid instanceKey : Text) : Bool :=
  match idx[uid]? with
  | none => false
  | some overrides => overrides.any (fun ov => ov.recurrenceId = instanceKey)

def overrideShown (win : TimeWindow) (r : RawEvent) : Bool :=
  r.hasRecurrenceId && r.ev.status ≠ .canceled && inWindow r.ev.start win

/-- What `add_in_window_overrides` appends to the result. -/
def inWindowOverrides (raws : List RawEvent) (win : TimeWindow) : List ScheduledEvent :=
  (raws.filter (overrideShown win)).map RawEvent.ev

theorem mem_index_add (idx : Index) (r : RawEvent) (uid : Text) (ov : RawEvent) :
    ov ∈ ((idx.add r)[uid]?).getD [] ↔
      ov ∈ (idx[uid]?).getD [] ∨ (ov = r ∧ r.hasRecurrenceId = true ∧ r.ev.uid = uid) := by
  by_cases has : r.hasRecurrenceId = true
  · by_cases same : r.ev.uid = uid
    · subst same
      simp [Index.add, has]
    · simp [Index.add, has, same, Std.ExtTreeMap.getElem?_insert]
  · simp [Index.add, has]

theorem mem_index (raws : List RawEvent) (uid : Text) (ov : RawEvent) :
    ov ∈ ((buildIndex raws)[uid]?).getD [] ↔
      ov ∈ raws ∧ ov.hasRecurrenceId = true ∧ ov.ev.uid = uid := by
  have general : ∀ idx : Index, ov ∈ ((raws.foldl Index.add idx)[uid]?).getD [] ↔
      ov ∈ (idx[uid]?).getD [] ∨ (ov ∈ raws ∧ ov.hasRecurrenceId = true ∧ ov.ev.uid = uid) := by
    induction raws with
    | nil => simp
    | cons r rest ih =>
      intro idx
      rw [List.foldl_cons, ih, mem_index_add, List.mem_cons]
      apply Iff.intro
      · intro given
        rcases given with (old | ⟨rfl, has, same⟩) | ⟨member, rest⟩
        · exact .inl old
        · exact .inr ⟨.inl rfl, has, same⟩
        · exact .inr ⟨.inr member, rest⟩
      · intro given
        rcases given with old | ⟨rfl | member, rest⟩
        · exact .inl (.inl old)
        · exact .inl (.inr ⟨rfl, rest⟩)
        · exact .inr ⟨member, rest⟩
  simpa [buildIndex] using general ∅

theorem isOverridden_iff (raws : List RawEvent) (uid instanceKey : Text) :
    isOverridden (buildIndex raws) uid instanceKey = true ↔
      ∃ ov ∈ raws, ov.hasRecurrenceId = true ∧ ov.ev.uid = uid ∧ ov.recurrenceId = instanceKey := by
  have members := mem_index raws uid
  unfold isOverridden
  cases found : (buildIndex raws)[uid]? with
  | none =>
    simp only [found, Option.getD_none, List.not_mem_nil, false_iff] at members
    simp only [Bool.false_eq_true, false_iff]
    intro given
    obtain ⟨ov, member, has, same, _⟩ := given
    exact members ov ⟨member, has, same⟩
  | some overrides =>
    simp only [found, Option.getD_some] at members
    simp only [List.any_eq_true, decide_eq_true_eq]
    apply Iff.intro
    · intro given
      obtain ⟨ov, member, key⟩ := given
      exact ⟨ov, ((members ov).mp member).1, ((members ov).mp member).2.1,
        ((members ov).mp member).2.2, key⟩
    · intro given
      obtain ⟨ov, member, has, same, key⟩ := given
      exact ⟨ov, (members ov).mpr ⟨member, has, same⟩, key⟩

end DivoomDev.Ics.OverrideApplier
