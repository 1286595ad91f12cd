import Mathlib

/-! Views of a list: the items that a condition lets through, in the order of a key. Items of one
key may stand in any order. -/

namespace DivoomDev.Library.View

variable {α τ : Type} [LinearOrder τ] {key : α → τ}

structure IsView (key : α → τ) (visible : α → Prop) [DecidablePred visible] (all shown : List α) :
    Prop where
  same : shown.Perm (all.filter visible)
  sorted : shown.Pairwise (fun a b => key a ≤ key b)

variable {visible wide : α → Prop} [DecidablePred visible] [DecidablePred wide] {all shown : List α}

theorem IsView.mem_iff (view : IsView key visible all shown) {item : α} :
    item ∈ shown ↔ item ∈ all ∧ visible item := by
  simp [view.same.mem_iff]

/-- What a view shows is what it lets through of a view with a weaker condition. -/
theorem IsView.narrow (view : IsView key visible all shown) {more : List α} (wider : IsView key wide all more)
    (weaker : ∀ item, visible item → wide item) : IsView key visible more shown where
  sorted := view.sorted
  same := by
    have within : (all.filter wide).filter visible = all.filter visible := by
      rw [List.filter_filter]
      apply List.filter_congr
      intro item _
      by_cases seen : visible item
      · simp [seen, weaker item seen]
      · simp [seen]
    exact view.same.trans ((wider.same.filter _).trans (List.Perm.of_eq within)).symm

/-- Two views of one list show the same where their conditions overlap. -/
theorem IsView.overlap (view : IsView key visible all shown) {other : List α} (second : IsView key wide all other) :
    (shown.filter wide).Perm (other.filter visible) := calc
  List.Perm (shown.filter wide) ((all.filter visible).filter wide) := view.same.filter _
  List.Perm _ ((all.filter wide).filter visible) :=
    List.Perm.of_eq (by simp only [List.filter_filter, Bool.and_comm])
  List.Perm _ (other.filter visible) := (second.same.filter _).symm

/-- A map that keeps the order of the keys and what the conditions let through keeps the view. -/
theorem IsView.map {β σ : Type} [LinearOrder σ] {key' : β → σ} {visible' : β → Prop} [DecidablePred visible']
    {f : α → β} (view : IsView key visible all shown) (seen : ∀ item, visible' (f item) ↔ visible item)
    (ordered : ∀ a b, key a ≤ key b → key' (f a) ≤ key' (f b)) :
    IsView key' visible' (all.map f) (shown.map f) where
  same := by
    rw [List.filter_map]
    exact (view.same.trans (List.Perm.of_eq (List.filter_congr (fun item _ => by simp [seen item])))).map f
  sorted := List.pairwise_map.mpr (view.sorted.imp (ordered _ _))

/-- The view of two lists joined is what the views of both show. -/
theorem IsView.append {all' shown' : List α} (view : IsView key visible all shown)
    (second : IsView key visible all' shown') {both : List α} (joined : IsView key visible (all ++ all') both) :
    both.Perm (shown ++ shown') := calc
  List.Perm both (all.filter visible ++ all'.filter visible) :=
    joined.same.trans (List.Perm.of_eq (List.filter_append _ _))
  List.Perm _ (shown ++ shown') := (view.same.append second.same).symm

end DivoomDev.Library.View
