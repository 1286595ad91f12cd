import Mathlib

/-! Computations that may end with an error: when they return, and what a sequence of them
returns when each item is computed on its own. -/

namespace DivoomDev.Library.Fallible

variable {ε α β σ : Type}

def Returns (x : Except ε α) : Prop := ∃ a, x = .ok a

@[simp] theorem returns_pure (a : α) : Returns (pure a : Except ε α) := ⟨a, rfl⟩

@[simp] theorem returns_ok (a : α) : Returns (.ok a : Except ε α) := ⟨a, rfl⟩

@[simp] theorem returns_error (e : ε) : ¬Returns (.error e : Except ε α) := by
  intro given
  obtain ⟨a, same⟩ := given
  cases same

theorem returns_ite {condition : Prop} [Decidable condition] {x y : Except ε α} (left : Returns x)
    (right : Returns y) : Returns (if condition then x else y) := by
  split_ifs
  · exact left
  · exact right

theorem bind_eq_ok {x : Except ε α} {next : α → Except ε β} {b : β} :
    x >>= next = .ok b ↔ ∃ a, x = .ok a ∧ next a = .ok b := by
  cases x with
  | error e => simp [bind, Except.bind]
  | ok a => simp [bind, Except.bind]

theorem map_eq_ok {x : Except ε α} {f : α → β} {b : β} : x.map f = .ok b ↔ ∃ a, x = .ok a ∧ f a = b := by
  cases x <;> simp [Except.map]

theorem returns_map (x : Except ε α) (f : α → β) : Returns (x.map f) ↔ Returns x := by
  cases x <;> simp [Except.map]

/-- Where the second part returns does not depend on the value of the first. -/
theorem returns_bind {x : Except ε α} {next : α → Except ε β} {condition : Prop}
    (same : ∀ a, x = .ok a → (Returns (next a) ↔ condition)) :
    Returns (x >>= next) ↔ Returns x ∧ condition := by
  cases x with
  | error e => simp [bind, Except.bind]
  | ok a => simp [bind, Except.bind, same a rfl]

theorem returns_bind_pure (x : Except ε α) (f : α → β) :
    Returns (x >>= fun a => pure (f a)) ↔ Returns x := by
  cases x <;> simp [bind, Except.bind]

/-- The value, if there is one, meets a postcondition. -/
def Ensures (x : Except ε α) (post : α → Prop) : Prop := ∀ a, x = .ok a → post a

theorem ensures_pure {post : α → Prop} {a : α} (holds : post a) :
    Ensures (pure a : Except ε α) post := by
  intro b same
  cases same
  exact holds

theorem ensures_ite {condition : Prop} [Decidable condition] {x y : Except ε α} {post : α → Prop}
    (left : Ensures x post) (right : Ensures y post) :
    Ensures (if condition then x else y) post := by
  split_ifs
  · exact left
  · exact right

theorem ensures_bind {x : Except ε α} {next : α → Except ε β} {post : β → Prop}
    (each : ∀ a, x = .ok a → Ensures (next a) post) : Ensures (x >>= next) post := by
  intro b same
  obtain ⟨a, first, rest⟩ := bind_eq_ok.mp same
  exact each a first b rest

/-- A loop returns exactly when every item's step does, where what a step does to the state
has no part in whether it returns. -/
theorem returns_foldlM {step : σ → α → Except ε σ} {condition : α → Prop}
    (same : ∀ s item, Returns (step s item) ↔ condition item) (items : List α) (s : σ) :
    Returns (items.foldlM step s) ↔ ∀ item ∈ items, condition item := by
  induction items generalizing s with
  | nil => simp
  | cons item rest ih =>
    rw [List.foldlM_cons, returns_bind (fun s' _ => ih s'), same, List.forall_mem_cons]

theorem returns_mapM {f : α → Except ε β} {condition : α → Prop}
    (same : ∀ item, Returns (f item) ↔ condition item) (items : List α) :
    Returns (items.mapM f) ↔ ∀ item ∈ items, condition item := by
  induction items with
  | nil => simp
  | cons item rest ih =>
    rw [List.mapM_cons, returns_bind (fun b _ => returns_bind_pure _ _), same, ih,
      List.forall_mem_cons]

theorem mem_mapM {f : α → Except ε β} {items : List α} {values : List β}
    (returned : items.mapM f = .ok values) (b : β) :
    b ∈ values ↔ ∃ item ∈ items, f item = .ok b := by
  induction items generalizing values with
  | nil =>
    cases returned
    simp
  | cons item rest ih =>
    simp only [List.mapM_cons, bind_eq_ok] at returned
    obtain ⟨first, hit, later, tail, whole⟩ := returned
    cases whole
    simp only [List.mem_cons, ih tail, exists_eq_or_imp, hit, Except.ok.injEq, eq_comm (a := b)]

theorem length_mapM {f : α → Except ε β} {items : List α} {values : List β}
    (returned : items.mapM f = .ok values) : values.length = items.length := by
  induction items generalizing values with
  | nil =>
    cases returned
    rfl
  | cons item rest ih =>
    simp only [List.mapM_cons, bind_eq_ok] at returned
    obtain ⟨first, _, later, tail, whole⟩ := returned
    cases whole
    rw [List.length_cons, List.length_cons, ih tail]

theorem mapM_perm {f : α → Except ε β} {items items' : List α} (perm : items.Perm items') {values : List β}
    (returned : items.mapM f = .ok values) :
    ∃ values', items'.mapM f = .ok values' ∧ values.Perm values' := by
  induction perm generalizing values with
  | nil => exact ⟨values, returned, .refl _⟩
  | cons item _ ih =>
    simp only [List.mapM_cons, bind_eq_ok] at returned ⊢
    obtain ⟨first, hit, later, tail, whole⟩ := returned
    cases whole
    obtain ⟨later', tail', same⟩ := ih tail
    exact ⟨first :: later', ⟨first, hit, later', tail', rfl⟩, same.cons first⟩
  | swap item other rest =>
    simp only [List.mapM_cons, bind_eq_ok] at returned ⊢
    obtain ⟨second, hitSecond, _, ⟨first, hitFirst, later, tail, inner⟩, whole⟩ := returned
    cases inner
    cases whole
    exact ⟨first :: second :: later,
      ⟨first, hitFirst, second :: later, ⟨second, hitSecond, later, tail, rfl⟩, rfl⟩, .swap ..⟩
  | trans _ _ ihFirst ihSecond =>
    obtain ⟨middle, mapped, same⟩ := ihFirst returned
    obtain ⟨values', mapped', same'⟩ := ihSecond mapped
    exact ⟨values', mapped', same.trans same'⟩

theorem mapM_map_eq {γ : Type} {encode : α → β} {decode : β → Except ε γ} {read : α → γ} {items : List α}
    (reads : ∀ item ∈ items, decode (encode item) = .ok (read item)) :
    (items.map encode).mapM decode = .ok (items.map read) := by
  induction items with
  | nil => rfl
  | cons item rest ih =>
    rw [List.map_cons, List.mapM_cons, reads item List.mem_cons_self,
      ih (fun other member => reads other (List.mem_cons_of_mem _ member))]
    rfl

theorem mapM_map {encode : α → β} {decode : β → Except ε α} {items : List α}
    (reads : ∀ item ∈ items, decode (encode item) = .ok item) :
    (items.map encode).mapM decode = .ok items := by
  have all : (items.map encode).mapM decode = .ok (items.map id) := mapM_map_eq reads
  rwa [List.map_id] at all

theorem foldlM_invariant {step : σ → α → Except ε σ} {I : List α → σ → Prop}
    (preserved : ∀ done s item s', I done s → step s item = .ok s' → I (done ++ [item]) s')
    {items : List α} (done : List α) {s s' : σ} (start : I done s)
    (returned : items.foldlM step s = .ok s') : I (done ++ items) s' := by
  induction items generalizing done s with
  | nil =>
    cases returned
    simpa using start
  | cons item rest ih =>
    rw [List.foldlM_cons, bind_eq_ok] at returned
    obtain ⟨middle, first, later⟩ := returned
    simpa using ih _ (preserved done s item middle start first) later

end DivoomDev.Library.Fallible
