import Mathlib

/-! A counted loop whose body may `continue`, `break` or append one value to its output.
The three outcomes are data, so what such a loop emits can be stated without unrolling it. -/

namespace DivoomDev.Library.Loop

/-- What one pass through the body does. -/
inductive Verdict (β : Type) where
  | skip
  | stop
  | emit (value : β)

variable {α β : Type}

def Verdict.emitted : Verdict β → Option β
  | .emit value => some value
  | _ => none

theorem Verdict.emitted_eq_some {verdict : Verdict β} {value : β} :
    verdict.emitted = some value ↔ verdict = .emit value := by
  cases verdict <;> simp [Verdict.emitted]

/-- The pass with its value carried over. -/
def Verdict.map {γ : Type} (f : β → γ) : Verdict β → Verdict γ
  | .skip => .skip
  | .stop => .stop
  | .emit value => .emit (f value)

/-- The values that the loop over a list of counters appends, in order. -/
def scan (verdict : α → Verdict β) : List α → List β
  | [] => []
  | a :: rest =>
      match verdict a with
      | .skip => scan verdict rest
      | .stop => []
      | .emit value => value :: scan verdict rest

theorem of_mem_scan {verdict : α → Verdict β} {counters : List α} {value : β}
    (member : value ∈ scan verdict counters) : ∃ a ∈ counters, verdict a = .emit value := by
  induction counters with
  | nil => cases member
  | cons head rest ih =>
    simp only [scan] at member
    cases outcome : verdict head with
    | stop => simp [outcome] at member
    | skip =>
      rw [outcome] at member
      obtain ⟨a, later, emitted⟩ := ih member
      exact ⟨a, List.mem_cons_of_mem _ later, emitted⟩
    | emit first =>
      rw [outcome] at member
      rcases List.mem_cons.mp member with rfl | inRest
      · exact ⟨head, List.mem_cons_self, outcome⟩
      · obtain ⟨a, later, emitted⟩ := ih inRest
        exact ⟨a, List.mem_cons_of_mem _ later, emitted⟩

/-- What the loop appends, each value with the counter it is made of. -/
def traced (verdict : α → Verdict β) : List α → List (α × β)
  | [] => []
  | a :: rest =>
      match verdict a with
      | .skip => traced verdict rest
      | .stop => []
      | .emit value => (a, value) :: traced verdict rest

theorem map_snd_traced (verdict : α → Verdict β) (counters : List α) :
    (traced verdict counters).map Prod.snd = scan verdict counters := by
  induction counters with
  | nil => rfl
  | cons head rest ih =>
    simp only [scan, traced]
    cases verdict head with
    | skip => exact ih
    | stop => rfl
    | emit value => rw [List.map_cons, ih]

theorem of_mem_traced {verdict : α → Verdict β} {counters : List α} {p : α × β}
    (member : p ∈ traced verdict counters) : verdict p.1 = .emit p.2 := by
  induction counters with
  | nil => cases member
  | cons head rest ih =>
    simp only [traced] at member
    cases outcome : verdict head with
    | skip => exact ih (by simpa [outcome] using member)
    | stop => simp [outcome] at member
    | emit value =>
      simp only [outcome] at member
      rcases List.mem_cons.mp member with rfl | inRest
      · exact outcome
      · exact ih inRest

theorem traced_sublist (verdict : α → Verdict β) (counters : List α) :
    ((traced verdict counters).map Prod.fst).Sublist counters := by
  induction counters with
  | nil => exact .slnil
  | cons head rest ih =>
    simp only [traced]
    cases verdict head with
    | skip => exact ih.cons head
    | stop => exact List.nil_sublist _
    | emit value => exact ih.cons_cons head

/-- A pass that appends only where the counter is kept. -/
def Verdict.filter (keep : Bool) : Verdict β → Verdict β
  | .emit value => if keep then .emit value else .skip
  | verdict => verdict

/-- A loop that leaves some counters out breaks where the loop over all does. -/
theorem scan_filter (verdict : α → Verdict β) (keep : α → Bool) (counters : List α) :
    scan (fun a => (verdict a).filter (keep a)) counters =
      ((traced verdict counters).filter (fun p => keep p.1)).map Prod.snd := by
  induction counters with
  | nil => rfl
  | cons head rest ih =>
    simp only [scan, traced]
    cases verdict head with
    | skip => exact ih
    | stop => rfl
    | emit value =>
      rw [List.filter_cons, Verdict.filter]
      cases keep head with
      | false => exact ih
      | true => exact congrArg (value :: ·) ih

/-- Where nothing is emitted behind a counter that breaks, the break loses nothing: the loop
appends what its passes append one by one. -/
theorem scan_eq_filterMap (verdict : α → Verdict β) (counters : List α)
    (final : counters.Pairwise (fun a b => verdict a = .stop → ∀ late, verdict b ≠ .emit late)) :
    scan verdict counters = counters.filterMap (fun a => (verdict a).emitted) := by
  induction counters with
  | nil => rfl
  | cons head rest ih =>
    obtain ⟨headFinal, restFinal⟩ := List.pairwise_cons.mp final
    cases outcome : verdict head with
    | skip =>
      rw [List.filterMap_cons_none (by rw [outcome]; rfl), ← ih restFinal]
      simp only [scan, outcome]
    | emit value =>
      rw [List.filterMap_cons_some (by rw [outcome]; rfl), ← ih restFinal]
      simp only [scan, outcome]
    | stop =>
      have silent : ∀ b ∈ head :: rest, (verdict b).emitted = none := by
        intro b member
        rcases List.mem_cons.mp member with rfl | later
        · rw [outcome]
          rfl
        · exact Option.eq_none_iff_forall_ne_some.mpr
            (fun late some => headFinal b later outcome late (Verdict.emitted_eq_some.mp some))
      rw [List.filterMap_eq_nil_iff.mpr silent]
      simp only [scan, outcome]

/-- Passes that each look at one point and append what they make of it, where they keep it. -/
theorem scan_eq_map_filter {γ : Type} {verdict : α → Verdict β} {counters : List α} {point : α → γ}
    {keep : γ → Bool} {make : γ → β}
    (final : counters.Pairwise (fun a b => verdict a = .stop → ∀ late, verdict b ≠ .emit late))
    (passes : ∀ a, (verdict a).emitted = if keep (point a) then some (make (point a)) else none) :
    scan verdict counters = ((counters.map point).filter keep).map make := by
  rw [scan_eq_filterMap verdict counters final]
  clear final
  induction counters with
  | nil => rfl
  | cons head rest ih =>
    rw [List.filterMap_cons, passes, List.map_cons, List.filter_cons]
    split_ifs
    · rw [List.map_cons, ih]
    · exact ih

/-- One pass appends something, and the others nothing. -/
theorem flatMap_eq_single {f : α → List β} {items : List α} {item : α} (once : items.Nodup)
    (member : item ∈ items) (silent : ∀ other ∈ items, other ≠ item → f other = []) :
    items.flatMap f = f item := by
  obtain ⟨before, after, rfl⟩ := List.append_of_mem member
  have apart := List.nodup_append.mp once
  have nothingBefore : before.flatMap f = [] := by
    rw [List.flatMap_eq_nil_iff]
    intro other inside
    exact silent other (List.mem_append_left _ inside) (apart.2.2 other inside item List.mem_cons_self)
  have nothingAfter : after.flatMap f = [] := by
    rw [List.flatMap_eq_nil_iff]
    intro other inside
    apply silent other (List.mem_append_right _ (List.mem_cons_of_mem _ inside))
    intro same
    exact (List.nodup_cons.mp apart.2.1).1 (same ▸ inside)
  rw [List.flatMap_append, List.flatMap_cons, nothingBefore, nothingAfter, List.nil_append, List.append_nil]

theorem flatten_scan_eq_flatMap {verdict : α → Verdict (List β)} {counters : List α} {block : α → List β}
    (final : counters.Pairwise (fun a b => verdict a = .stop → ∀ late, verdict b ≠ .emit late))
    (passes : ∀ a, (verdict a).emitted.getD [] = block a) :
    (scan verdict counters).flatten = counters.flatMap block := by
  rw [scan_eq_filterMap verdict counters final]
  clear final
  induction counters with
  | nil => rfl
  | cons head rest ih =>
    rw [List.filterMap_cons, List.flatMap_cons, ← passes head, ← ih]
    cases (verdict head).emitted <;> simp

/-! ## Passes that are reached -/

/-- What the passes of a loop put down, where each also says whether the loop breaks behind it. -/
def collect (pass : α → List β × Bool) : List α → List β
  | [] => []
  | a :: rest => (pass a).1 ++ if (pass a).2 then [] else collect pass rest

theorem mem_collect_range' {pass : Nat → List β × Bool} {value : β} (first count : Nat) :
    value ∈ collect pass (List.range' first count) ↔
      ∃ i, first ≤ i ∧ i < first + count ∧ (∀ j, first ≤ j → j < i → (pass j).2 = false) ∧
        value ∈ (pass i).1 := by
  induction count generalizing first with
  | zero =>
    simp only [List.range'_zero, collect, List.not_mem_nil, false_iff, not_exists]
    omega
  | succ count ih =>
    rw [List.range'_succ, collect, List.mem_append]
    apply Iff.intro
    · intro given
      rcases given with now | later
      · exact ⟨first, le_refl first, by omega, fun j low high => absurd high (not_lt.mpr low), now⟩
      · split_ifs at later with breaks
        · cases later
        · obtain ⟨i, low, high, reached, inside⟩ := (ih (first + 1)).mp later
          refine ⟨i, by omega, by omega, ?_, inside⟩
          intro j lowJ highJ
          rcases Nat.eq_or_lt_of_le lowJ with same | behind
          · rw [← same]
            exact Bool.eq_false_iff.mpr breaks
          · exact reached j behind highJ
    · intro given
      obtain ⟨i, low, high, reached, inside⟩ := given
      rcases Nat.eq_or_lt_of_le low with same | behind
      · left
        rw [same]
        exact inside
      · right
        rw [if_neg (Bool.eq_false_iff.mp (reached first (le_refl first) behind))]
        exact (ih (first + 1)).mpr
          ⟨i, behind, by omega, fun j lowJ => reached j (by omega), inside⟩

theorem mem_collect_range {pass : Nat → List β × Bool} {value : β} (count : Nat) :
    value ∈ collect pass (List.range count) ↔
      ∃ i < count, (∀ j < i, (pass j).2 = false) ∧ value ∈ (pass i).1 := by
  rw [List.range_eq_range', mem_collect_range']
  simp

theorem forall_mem_collect_range {pass : Nat → List β × Bool} {P : β → Prop} (count : Nat) :
    (∀ value ∈ collect pass (List.range count), P value) ↔
      ∀ i < count, (∀ j < i, (pass j).2 = false) → ∀ value ∈ (pass i).1, P value := by
  simp only [mem_collect_range]
  exact ⟨fun all i inLoop reached value inside => all value ⟨i, inLoop, reached, inside⟩,
    fun all value ⟨i, inLoop, reached, inside⟩ => all i inLoop reached value inside⟩

theorem scan_map {γ : Type} {pass : α → Verdict β} {pass' : α → Verdict γ} {f : β → γ} {counters : List α}
    (same : ∀ a ∈ counters, pass' a = (pass a).map f) : scan pass' counters = (scan pass counters).map f := by
  induction counters with
  | nil => rfl
  | cons head rest ih =>
    obtain ⟨here, later⟩ := List.forall_mem_cons.mp same
    rw [scan, scan, here]
    cases pass head with
    | skip => exact ih later
    | stop => rfl
    | emit value => exact congrArg (f value :: ·) (ih later)

/-- Two loops append the same where their passes agree on all that is put down on the way. -/
theorem scan_map_of_collect {γ ι : Type} {pass : α → Verdict β} {pass' : α → Verdict γ} {f : β → γ}
    {numbers : α → List ι × Bool} {P : ι → Prop} {counters : List α}
    (breaks : ∀ a, (numbers a).2 = true → pass a = .stop)
    (same : ∀ a, (∀ number ∈ (numbers a).1, P number) → pass' a = (pass a).map f)
    (all : ∀ number ∈ collect numbers counters, P number) :
    scan pass' counters = (scan pass counters).map f := by
  induction counters with
  | nil => rfl
  | cons head rest ih =>
    obtain ⟨here, later⟩ := List.forall_mem_append.mp all
    rw [scan, scan, same head here]
    by_cases halts : (numbers head).2 = true
    · rw [breaks head halts]
      rfl
    · rw [if_neg halts] at later
      cases pass head with
      | skip => exact ih later
      | stop => rfl
      | emit value => exact congrArg (f value :: ·) (ih later)

/-- Behind a pass that is reached stands the last one: the first that breaks, or the end of the
loop. -/
theorem exists_last {breaks : Nat → Prop} {i bound : Nat} (le : i ≤ bound) (reached : ∀ j < i, ¬breaks j) :
    ∃ n, i ≤ n ∧ n ≤ bound ∧ (∀ j < n, ¬breaks j) ∧ (breaks n ∨ n = bound) := by
  induction le using Nat.decreasingInduction with
  | self => exact ⟨bound, le_refl bound, le_refl bound, reached, .inr rfl⟩
  | of_succ i lt ih =>
    by_cases now : breaks i
    · exact ⟨i, le_refl i, lt.le, reached, .inl now⟩
    · have next : ∀ j < i + 1, ¬breaks j := by
        intro j before
        rcases Nat.lt_succ_iff_lt_or_eq.mp before with earlier | rfl
        · exact reached j earlier
        · exact now
      obtain ⟨n, behind, rest⟩ := ih next
      exact ⟨n, by omega, rest⟩

theorem eq_last {breaks : Nat → Prop} {i n : Nat} (le : i ≤ n) (reached : ∀ j < n, ¬breaks j) (now : breaks i) :
    i = n := by
  rcases le.eq_or_lt with same | before
  · exact same
  · exact absurd now (reached i before)

/-- The last pass that is reached over an arithmetic progression, where a loop of `bound + 1`
passes breaks behind the first point past the line. -/
def lastPass (bound : Nat) (start step line : Int) : Nat := min bound ((line - start) / step + 1).toNat

/-- The points of the passes that are reached stay under a limit when the point of the last does. -/
theorem reached_le_iff {start step : Int} (forward : 0 ≤ step) (bound : Nat) (line limit : Int) :
    (∀ i < bound + 1, (∀ j < i, start + step * (j : Nat) ≤ line) → start + step * (i : Nat) ≤ limit) ↔
      start + step * lastPass bound start step line ≤ limit := by
  rcases forward.eq_or_lt with still | steps
  · rw [← still]
    simp only [Int.zero_mul, Int.add_zero]
    exact ⟨fun all => all 0 (by omega) (fun j none => absurd none (Nat.not_lt_zero j)), fun le _ _ _ => le⟩
  have before (j : Nat) : start + step * j ≤ line ↔ (j : Int) ≤ (line - start) / step := by
    rw [Int.le_ediv_iff_mul_le steps, Int.mul_comm]
    omega
  apply Iff.intro
  · intro all
    apply all _ (by rw [lastPass]; omega)
    intro j lt
    rw [before]
    rw [lastPass] at lt
    omega
  · intro last i inLoop reached
    have le : i ≤ lastPass bound start step line := by
      rw [lastPass]
      rcases Nat.eq_zero_or_pos i with zero | behind
      · omega
      · have previous := (before (i - 1)).mp (reached (i - 1) (by omega))
        omega
    have points : step * (i : Int) ≤ step * lastPass bound start step line :=
      Int.mul_le_mul_of_nonneg_left (by omega) forward
    omega

end DivoomDev.Library.Loop
