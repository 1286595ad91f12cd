import Mathlib

/-! Histories of a keyed store: what is put, dropped and wiped in turn, and what each key holds
behind it. -/

namespace DivoomDev.Library.History

inductive Event (κ ρ : Type) where
  | put (key : κ) (value : ρ)
  | drop (key : κ)
  | wipe
  deriving DecidableEq, Repr

variable {κ ρ : Type}

def Touches (key : κ) : Event κ ρ → Prop
  | .put k _ => k = key
  | .drop k => k = key
  | .wipe => True

def putKey : Event κ ρ → Option κ
  | .put k _ => some k
  | _ => none

variable [DecidableEq κ]

/-- What is under a key behind one event. -/
def leave (key : κ) (before : Option ρ) : Event κ ρ → Option ρ
  | .put k value => if k = key then some value else before
  | .drop k => if k = key then none else before
  | .wipe => none

def held (key : κ) (history : List (Event κ ρ)) : Option ρ := history.foldl (leave key) none

/-- The keys that hold something, each with what it holds. -/
def rows (history : List (Event κ ρ)) : List (κ × ρ) :=
  (history.filterMap putKey).dedup.filterMap (fun k => (held k history).map (k, ·))

theorem held_append_singleton (key : κ) (history : List (Event κ ρ)) (event : Event κ ρ) :
    held key (history ++ [event]) = leave key (held key history) event := by
  rw [held, List.foldl_append]
  rfl

theorem leave_eq_some_iff {key : κ} {value : ρ} {before : Option ρ} {event : Event κ ρ} :
    leave key before event = some value ↔
      event = .put key value ∨ (before = some value ∧ ¬Touches key event) := by
  cases event with
  | put k v =>
    by_cases same : k = key
    · simp [leave, Touches, same]
    · simp [leave, Touches, same]
  | drop k => by_cases same : k = key <;> simp [leave, Touches, same]
  | wipe => simp [leave, Touches]

/-- What is held comes from the last event that concerns the key, or from before all of them. -/
theorem foldl_leave_eq_some_iff {key : κ} {value : ρ} {start : Option ρ} {history : List (Event κ ρ)} :
    history.foldl (leave key) start = some value ↔
      (∃ before after, history = before ++ .put key value :: after ∧ ∀ event ∈ after, ¬Touches key event) ∨
        (start = some value ∧ ∀ event ∈ history, ¬Touches key event) := by
  induction history generalizing start with
  | nil => simp
  | cons event rest ih =>
    rw [List.foldl_cons, ih, leave_eq_some_iff]
    apply Iff.intro
    · intro given
      rcases given with ⟨before, after, rfl, quiet⟩ | ⟨rfl | ⟨rfl, other⟩, quiet⟩
      · exact .inl ⟨event :: before, after, rfl, quiet⟩
      · exact .inl ⟨[], rest, rfl, quiet⟩
      · exact .inr ⟨rfl, List.forall_mem_cons.mpr ⟨other, quiet⟩⟩
    · intro given
      rcases given with ⟨before, after, same, quiet⟩ | ⟨rfl, quiet⟩
      · rcases List.cons_eq_append_iff.mp same with ⟨rfl, here⟩ | ⟨front, rfl, later⟩
        · cases here
          exact .inr ⟨.inl rfl, quiet⟩
        · exact .inl ⟨front, after, later, quiet⟩
      · obtain ⟨other, later⟩ := List.forall_mem_cons.mp quiet
        exact .inr ⟨.inr ⟨rfl, other⟩, later⟩

/-- A key holds what was put under it last, unless it was dropped or wiped later. -/
theorem held_eq_some_iff {key : κ} {value : ρ} {history : List (Event κ ρ)} :
    held key history = some value ↔ ∃ before after, history = before ++ .put key value :: after ∧
      ∀ event ∈ after, ¬Touches key event := by
  simp [held, foldl_leave_eq_some_iff]

theorem mem_rows {history : List (Event κ ρ)} {row : κ × ρ} :
    row ∈ rows history ↔ held row.1 history = some row.2 := by
  simp only [rows, List.mem_filterMap, List.mem_dedup, Option.map_eq_some_iff]
  apply Iff.intro
  · intro given
    obtain ⟨_, _, _, holds, rfl⟩ := given
    exact holds
  · intro holds
    obtain ⟨before, after, same, _⟩ := held_eq_some_iff.mp holds
    exact ⟨row.1, ⟨.put row.1 row.2, by simp [same], rfl⟩, row.2, holds, rfl⟩

theorem rows_distinct (history : List (Event κ ρ)) : ((rows history).map Prod.fst).Nodup := by
  have keys : (rows history).map Prod.fst =
      ((history.filterMap putKey).dedup).filter (fun k => (held k history).isSome) := by
    simp only [rows, List.map_filterMap, ← List.filterMap_eq_filter]
    apply List.filterMap_congr
    intro k _
    cases left : held k history <;> simp [Option.guard, left]
  rw [keys]
  exact (List.nodup_dedup _).filter _

/-! ## Maps -/

section Maps
variable [Ord κ] [Std.TransOrd κ] [Std.LawfulEqOrd κ]

def apply (table : Std.ExtTreeMap κ ρ) : Event κ ρ → Std.ExtTreeMap κ ρ
  | .put k value => table.insert k value
  | .drop k => table.erase k
  | .wipe => ∅

def replay (history : List (Event κ ρ)) : Std.ExtTreeMap κ ρ := history.foldl apply ∅

omit [DecidableEq κ] [Std.LawfulEqOrd κ] in
theorem replay_append_singleton (history : List (Event κ ρ)) (event : Event κ ρ) :
    replay (history ++ [event]) = apply (replay history) event := by
  rw [replay, List.foldl_append]
  rfl

omit [DecidableEq κ] [Std.LawfulEqOrd κ] in
/-- One more step of a system, of which not every step is an event of the store. -/
theorem replay_filterMap_append {α : Type} (event? : α → Option (Event κ ρ)) (earlier : List (Event κ ρ))
    (steps : List α) (last : α) :
    replay (earlier ++ (steps ++ [last]).filterMap event?) =
      (event? last).elim (replay (earlier ++ steps.filterMap event?))
        (apply (replay (earlier ++ steps.filterMap event?))) := by
  rw [List.filterMap_append, ← List.append_assoc]
  cases happens : event? last with
  | none => simp [happens]
  | some event =>
    rw [List.filterMap_cons_some happens, List.filterMap_nil, replay_append_singleton]
    rfl

/-- The map that is kept through a history holds under every key what the history holds. -/
theorem getElem?_replay (history : List (Event κ ρ)) (key : κ) :
    (replay history)[key]? = held key history := by
  induction history using List.reverseRecOn with
  | nil => simp [replay, held]
  | append_singleton earlier last ih =>
    rw [replay_append_singleton, held_append_singleton, ← ih]
    cases last with
    | put k value => simp [apply, leave, Std.ExtTreeMap.getElem?_insert, Std.LawfulEqCmp.compare_eq_iff_eq]
    | drop k => simp [apply, leave, Std.ExtTreeMap.getElem?_erase, Std.LawfulEqCmp.compare_eq_iff_eq]
    | wipe => simp [apply, leave]

/-- Rows in the order of their keys. -/
def sortRows (list : List (κ × ρ)) : List (κ × ρ) :=
  list.insertionSort (fun a b => (compare a.1 b.1).isLE)

theorem toList_replay (history : List (Event κ ρ)) : (replay history).toList = sortRows (rows history) := by
  have tableNodup : (replay history).toList.Nodup :=
    (replay history).distinct_keys_toList.imp (fun differs same => by
      rw [same] at differs
      exact differs Std.ReflCmp.compare_self)
  have same : (replay history).toList.Perm (rows history) := by
    rw [List.perm_ext_iff_of_nodup tableNodup (rows_distinct history).of_map]
    intro row
    rw [mem_rows, ← getElem?_replay]
    exact Std.ExtTreeMap.mem_toList_iff_getElem?_eq_some
  have total : Std.Total (fun a b : κ × ρ => (compare a.1 b.1).isLE = true) := ⟨fun a b => by
    have swapped : compare b.1 a.1 = (compare a.1 b.1).swap := Std.OrientedCmp.eq_swap
    cases order : compare a.1 b.1 <;> simp [swapped, order]⟩
  have trans : IsTrans (κ × ρ) (fun a b => (compare a.1 b.1).isLE = true) :=
    ⟨fun _ _ _ first second => Std.TransCmp.isLE_trans first second⟩
  refine List.Perm.eq_of_pairwise (fun a b inTable inRows before behind => ?_)
    ((replay history).ordered_keys_toList.imp (fun less => by simp [less]))
    (List.pairwise_insertionSort _ _) (same.trans (List.perm_insertionSort _ _).symm)
  have sameKey : a.1 = b.1 := Std.LawfulEqCmp.eq_of_compare (Std.OrientedCmp.isLE_antisymm before behind)
  have here := Std.ExtTreeMap.mem_toList_iff_getElem?_eq_some.mp inTable
  have there := Std.ExtTreeMap.mem_toList_iff_getElem?_eq_some.mp
    (same.mem_iff.mpr ((List.perm_insertionSort _ _).mem_iff.mp inRows))
  rw [sameKey, there] at here
  exact Prod.ext sameKey (Option.some.inj here).symm

end Maps

end DivoomDev.Library.History
