import DivoomDev.Library.Fallible

/-! Items that act on a state and commute where their slots differ: the order counts within each
slot only. -/

namespace DivoomDev.Library.Commuting
open DivoomDev.Library.Fallible

variable {α σ κ υ ε : Type} [DecidableEq κ] {slot : α → κ}

/-- Both lists have the same items of every slot, in the same order. -/
def SameSlots (slot : α → κ) (xs ys : List α) : Prop :=
  ∀ k, xs.filter (fun a => slot a = k) = ys.filter (fun a => slot a = k)

theorem sameSlots_iff {xs ys : List α} : SameSlots slot xs ys ↔ ∀ k ∈ (xs ++ ys).map slot,
    xs.filter (fun a => slot a = k) = ys.filter (fun a => slot a = k) := by
  apply Iff.intro
  · exact fun same k _ => same k
  · intro same k
    by_cases listed : k ∈ (xs ++ ys).map slot
    · exact same k listed
    · have none (a : α) (member : a ∈ xs ++ ys) : ¬slot a = k := fun here =>
        listed (List.mem_map.mpr ⟨a, member, here⟩)
      rw [List.filter_eq_nil_iff.mpr (by simpa using fun a member => none a (List.mem_append_left _ member)),
        List.filter_eq_nil_iff.mpr (by simpa using fun a member => none a (List.mem_append_right _ member))]

instance [DecidableEq α] (slot : α → κ) (xs ys : List α) : Decidable (SameSlots slot xs ys) :=
  decidable_of_iff _ sameSlots_iff.symm

theorem SameSlots.mem_iff {xs ys : List α} (same : SameSlots slot xs ys) (a : α) : a ∈ xs ↔ a ∈ ys := by
  have ofSlot : a ∈ xs.filter (fun b => slot b = slot a) ↔ a ∈ ys.filter (fun b => slot b = slot a) := by
    rw [same (slot a)]
  simpa using ofSlot

/-- The first item of one list stands in the other one behind items of other slots. -/
theorem SameSlots.cons {a : α} {xs ys : List α} (same : SameSlots slot (a :: xs) ys) :
    ∃ front back, ys = front ++ a :: back ∧ (∀ b ∈ front, slot b ≠ slot a) ∧ SameSlots slot xs (front ++ back) := by
  have ofSlot := same (slot a)
  rw [List.filter_cons_of_pos (by simp)] at ofSlot
  obtain ⟨front, back, rfl, others, _, first⟩ := List.filter_eq_cons_iff.mp ofSlot.symm
  have different : ∀ b ∈ front, slot b ≠ slot a := fun b member => by simpa using others b member
  refine ⟨front, back, rfl, different, fun k => ?_⟩
  have whole := same k
  by_cases here : slot a = k
  · have none : front.filter (fun b => slot b = k) = [] := by
      simpa [List.filter_eq_nil_iff, ← here] using different
    simpa [here, none] using whole
  · simpa [here] using whole

/-- With one item of each slot any order will do. -/
theorem sameSlots_of_perm {xs ys : List α} (perm : xs.Perm ys) (once : (ys.map slot).Nodup) :
    SameSlots slot xs ys := by
  intro k
  have filtered : (xs.filter (fun a => slot a = k)).Perm (ys.filter (fun a => slot a = k)) := perm.filter _
  have few : (ys.filter (fun a => slot a = k)).length ≤ 1 := by
    have count : (ys.filter (fun a => slot a = k)).length = (ys.map slot).count k := by
      rw [List.count, List.countP_map, ← List.countP_eq_length_filter]
      rfl
    rw [count]
    exact List.nodup_iff_count_le_one.mp once k
  match alone : ys.filter (fun a => slot a = k) with
  | [] => rw [alone] at filtered; exact filtered.eq_nil
  | [a] => rw [alone] at filtered; exact filtered.eq_singleton
  | _ :: _ :: _ =>
    rw [alone] at few
    simp at few

theorem foldl_commute {act : σ → α → σ} {a : α} {front : List α}
    (commutes : ∀ s, ∀ b ∈ front, act (act s a) b = act (act s b) a) (s : σ) :
    front.foldl act (act s a) = act (front.foldl act s) a := by
  induction front generalizing s with
  | nil => rfl
  | cons b rest ih =>
    obtain ⟨here, later⟩ : (∀ s, act (act s a) b = act (act s b) a) ∧
        ∀ s, ∀ c ∈ rest, act (act s a) c = act (act s c) a :=
      ⟨fun s => commutes s b List.mem_cons_self, fun s c member => commutes s c (List.mem_cons_of_mem _ member)⟩
    rw [List.foldl_cons, List.foldl_cons, here, ih later]

theorem foldl_sameSlots {act : σ → α → σ}
    (commutes : ∀ s a b, slot a ≠ slot b → act (act s a) b = act (act s b) a) {xs ys : List α}
    (same : SameSlots slot xs ys) (s : σ) : xs.foldl act s = ys.foldl act s := by
  induction xs generalizing ys s with
  | nil =>
    have none : ys = [] := List.eq_nil_iff_forall_not_mem.mpr (fun a member => by
      simpa using (same.mem_iff a).mpr member)
    rw [none]
  | cons a rest ih =>
    obtain ⟨front, back, rfl, different, tail⟩ := same.cons
    calc rest.foldl act (act s a) = (front ++ back).foldl act (act s a) := ih tail _
      _ = (front ++ a :: back).foldl act s := by
        rw [List.foldl_append, List.foldl_append, List.foldl_cons,
          foldl_commute (fun s b member => commutes s a b (different b member).symm)]

/-! ## Items that may fail to be read -/

/-- The change of an item, where it reads. -/
def change (read : α → Except ε υ) (apply : σ → υ → σ) (s : σ) (a : α) : σ :=
  match read a with
  | .ok u => apply s u
  | .error _ => s

theorem foldlM_eq_ok {read : α → Except ε υ} {apply : σ → υ → σ} {xs : List α} {s s' : σ} :
    xs.foldlM (fun s a => (read a).map (apply s)) s = .ok s' ↔
      (∀ a ∈ xs, Returns (read a)) ∧ xs.foldl (change read apply) s = s' := by
  induction xs generalizing s with
  | nil => simp [pure, Except.pure]
  | cons a rest ih =>
    rw [List.foldlM_cons, List.foldl_cons, List.forall_mem_cons, bind_eq_ok, change]
    cases read a with
    | error e => simp [Except.map]
    | ok u =>
      simp only [show (Except.ok u : Except ε υ).map (apply s) = .ok (apply s u) from rfl, Except.ok.injEq,
        exists_eq_left', ih, returns_ok, true_and]

/-- Where the changes of different slots commute, the order within each slot settles what comes
out, and whether anything does. -/
theorem foldlM_sameSlots {read : α → Except ε υ} {apply : σ → υ → σ}
    (commutes : ∀ s a b u v, slot a ≠ slot b → read a = .ok u → read b = .ok v →
      apply (apply s u) v = apply (apply s v) u)
    {xs ys : List α} (same : SameSlots slot xs ys) {s s' : σ} :
    xs.foldlM (fun s a => (read a).map (apply s)) s = .ok s' ↔
      ys.foldlM (fun s a => (read a).map (apply s)) s = .ok s' := by
  have changes (s : σ) (a b : α) (different : slot a ≠ slot b) :
      change read apply (change read apply s a) b = change read apply (change read apply s b) a := by
    unfold change
    cases readA : read a with
    | error e => rfl
    | ok u =>
      cases readB : read b with
      | error e => rfl
      | ok v => exact commutes s a b u v different readA readB
  rw [foldlM_eq_ok, foldlM_eq_ok, foldl_sameSlots changes same]
  simp only [same.mem_iff]

end DivoomDev.Library.Commuting
