import Mathlib

/-! Lists of records with distinct keys, changed by search and replacement, and the maps that
they represent. -/

namespace DivoomDev.Library.KeyedList

section Lists
variable {α κ : Type} [DecidableEq κ] (key : α → κ)

/-- The first record with the key of `a` is replaced by `a`; without one, `a` is appended. -/
def upsert (a : α) : List α → List α
  | [] => [a]
  | b :: rest => if key b = key a then a :: rest else b :: upsert a rest

/-- The first record with a key is removed. -/
def remove (k : κ) (list : List α) : List α := list.eraseP (fun a => key a = k)

variable {key}

theorem upsert_of_findIdx? (a : α) (list : List α) :
    (match list.findIdx? (fun b => key b = key a) with
      | some i => list.set i a
      | none => list ++ [a]) = upsert key a list := by
  induction list with
  | nil => rfl
  | cons b rest ih =>
    by_cases same : key b = key a
    · simp [List.findIdx?_cons, upsert, same]
    · rw [upsert, if_neg same, ← ih, List.findIdx?_cons]
      cases found : rest.findIdx? (fun b => key b = key a) <;> simp [same]

theorem remove_of_findIdx? (k : κ) (list : List α) :
    (match list.findIdx? (fun b => key b = k) with
      | some i => list.eraseIdx i
      | none => list) = remove key k list := by
  unfold remove
  induction list with
  | nil => rfl
  | cons b rest ih =>
    by_cases same : key b = k
    · simp [List.findIdx?_cons, same]
    · rw [List.eraseP_cons_of_neg (by simpa using same), ← ih, List.findIdx?_cons]
      cases found : rest.findIdx? (fun b => key b = k) <;> simp [same]

theorem mem_upsert {a : α} {list : List α} (distinct : (list.map key).Nodup) (b : α) :
    b ∈ upsert key a list ↔ b = a ∨ (b ∈ list ∧ key b ≠ key a) := by
  induction list with
  | nil => simp [upsert]
  | cons c rest ih =>
    obtain ⟨fresh, later⟩ := List.nodup_cons.mp distinct
    by_cases same : key c = key a
    · have others : b ∈ rest → key b ≠ key a := fun member equal =>
        fresh (same.trans equal.symm ▸ List.mem_map_of_mem member)
      have replaced : b = c → key b = key a := fun isHead => isHead ▸ same
      rw [upsert, if_pos same, List.mem_cons, List.mem_cons]
      tauto
    · have kept : b = c → key b ≠ key a := fun isHead => isHead ▸ same
      rw [upsert, if_neg same, List.mem_cons, List.mem_cons, ih later]
      tauto

theorem upsert_distinct {a : α} {list : List α} (distinct : (list.map key).Nodup) :
    ((upsert key a list).map key).Nodup := by
  induction list with
  | nil => simp [upsert]
  | cons c rest ih =>
    obtain ⟨fresh, later⟩ := List.nodup_cons.mp distinct
    by_cases same : key c = key a
    · rw [upsert, if_pos same, List.map_cons, List.nodup_cons, ← same]
      exact ⟨fresh, later⟩
    · rw [upsert, if_neg same, List.map_cons, List.nodup_cons]
      refine ⟨fun clash => ?_, ih later⟩
      obtain ⟨b, member, equal⟩ := List.mem_map.mp clash
      rcases (mem_upsert later b).mp member with rfl | ⟨inRest, _⟩
      · exact same equal.symm
      · exact fresh (equal ▸ List.mem_map_of_mem inRest)

theorem remove_distinct {k : κ} {list : List α} (distinct : (list.map key).Nodup) :
    ((remove key k list).map key).Nodup := distinct.sublist ((List.eraseP_sublist).map key)

theorem mem_remove {k : κ} {list : List α} (distinct : (list.map key).Nodup) (b : α) :
    b ∈ remove key k list ↔ b ∈ list ∧ key b ≠ k := by
  unfold remove
  induction list with
  | nil => simp
  | cons c rest ih =>
    obtain ⟨fresh, later⟩ := List.nodup_cons.mp distinct
    by_cases same : key c = k
    · have others : b ∈ rest → key b ≠ k := fun member equal =>
        fresh (same.trans equal.symm ▸ List.mem_map_of_mem member)
      have removed : b = c → key b = k := fun isHead => isHead ▸ same
      rw [List.eraseP_cons_of_pos (by simpa using same), List.mem_cons]
      tauto
    · have kept : b = c → key b ≠ k := fun isHead => isHead ▸ same
      rw [List.eraseP_cons_of_neg (by simpa using same), List.mem_cons, List.mem_cons, ih later]
      tauto

theorem find?_eq_some {k : κ} {list : List α} (distinct : (list.map key).Nodup) (a : α) :
    list.find? (fun b => key b = k) = some a ↔ a ∈ list ∧ key a = k := by
  apply Iff.intro
  · intro found
    exact ⟨List.mem_of_find?_eq_some found, by simpa using List.find?_some found⟩
  · intro given
    obtain ⟨member, rfl⟩ := given
    cases hit : list.find? (fun b => key b = key a) with
    | none => exact absurd (List.find?_eq_none.mp hit a member) (by simp)
    | some b =>
      have same : key b = key a := by simpa using List.find?_some hit
      rw [List.inj_on_of_nodup_map distinct (List.mem_of_find?_eq_some hit) member same]

end Lists

/-! ## Maps -/

section Maps
variable {α κ ρ : Type} [Ord κ] [Std.TransOrd κ] {key : α → κ} {row : α → ρ}

/-- The list holds one record for each entry of the map, and no others. -/
structure Represents (key : α → κ) (row : α → ρ) (list : List α) (table : Std.ExtTreeMap κ ρ) : Prop where
  distinct : (list.map key).Nodup
  stored : ∀ a ∈ list, table[key a]? = some (row a)
  listed : ∀ k r, table[k]? = some r → ∃ a ∈ list, key a = k ∧ row a = r

theorem represents_nil : Represents key row [] (∅ : Std.ExtTreeMap κ ρ) where
  distinct := List.nodup_nil
  stored := by simp
  listed := by simp

theorem Represents.perm [Std.LawfulEqOrd κ] {list : List α} {table : Std.ExtTreeMap κ ρ}
    (represents : Represents key row list table) :
    (list.map (fun a => (key a, row a))).Perm table.toList := by
  have listNodup : (list.map (fun a => (key a, row a))).Nodup := by
    apply List.Nodup.of_map Prod.fst
    simpa [List.map_map, Function.comp_def] using represents.distinct
  have tableNodup : table.toList.Nodup :=
    table.distinct_keys_toList.imp (fun differs same => by
      rw [same] at differs
      exact differs Std.ReflCmp.compare_self)
  rw [List.perm_ext_iff_of_nodup listNodup tableNodup]
  intro given
  obtain ⟨k, r⟩ := given
  rw [Std.ExtTreeMap.mem_toList_iff_getElem?_eq_some, List.mem_map]
  apply Iff.intro
  · intro given
    obtain ⟨a, member, same⟩ := given
    cases same
    exact represents.stored a member
  · intro found
    obtain ⟨a, member, rfl, rfl⟩ := represents.listed k r found
    exact ⟨a, member, rfl⟩

variable [DecidableEq κ]

theorem Represents.find? {list : List α} {table : Std.ExtTreeMap κ ρ}
    (represents : Represents key row list table) (k : κ) :
    (list.find? (fun a => key a = k)).map row = table[k]? := by
  cases found : table[k]? with
  | some r =>
    obtain ⟨a, member, rfl, rfl⟩ := represents.listed k r found
    rw [(find?_eq_some represents.distinct a).mpr ⟨member, rfl⟩, Option.map_some]
  | none =>
    rw [Option.map_eq_none_iff, List.find?_eq_none]
    intro a member same
    rw [← of_decide_eq_true same, represents.stored a member] at found
    cases found

variable [Std.LawfulEqOrd κ]

theorem Represents.upsert {list : List α} {table : Std.ExtTreeMap κ ρ}
    (represents : Represents key row list table) (a : α) :
    Represents key row (upsert key a list) (table.insert (key a) (row a)) where
  distinct := upsert_distinct represents.distinct
  stored b member := by
    rw [Std.ExtTreeMap.getElem?_insert]
    rcases (mem_upsert represents.distinct b).mp member with rfl | ⟨inList, other⟩
    · simp
    · rw [if_neg (by simpa [Std.LawfulEqCmp.compare_eq_iff_eq] using Ne.symm other)]
      exact represents.stored b inList
  listed k r found := by
    rw [Std.ExtTreeMap.getElem?_insert] at found
    split_ifs at found with same
    · cases found
      exact ⟨a, (mem_upsert represents.distinct a).mpr (.inl rfl),
        Std.LawfulEqCmp.eq_of_compare same, rfl⟩
    · obtain ⟨b, member, rfl, rfl⟩ := represents.listed k r found
      refine ⟨b, (mem_upsert represents.distinct b).mpr (.inr ⟨member, fun equal => ?_⟩), rfl, rfl⟩
      rw [equal] at same
      exact same Std.ReflCmp.compare_self

theorem Represents.remove {list : List α} {table : Std.ExtTreeMap κ ρ}
    (represents : Represents key row list table) (k : κ) :
    Represents key row (remove key k list) (table.erase k) where
  distinct := remove_distinct represents.distinct
  stored b member := by
    obtain ⟨inList, other⟩ := (mem_remove represents.distinct b).mp member
    rw [Std.ExtTreeMap.getElem?_erase, if_neg (by simpa [Std.LawfulEqCmp.compare_eq_iff_eq] using Ne.symm other)]
    exact represents.stored b inList
  listed k' r found := by
    rw [Std.ExtTreeMap.getElem?_erase] at found
    split_ifs at found with same
    obtain ⟨b, member, rfl, rfl⟩ := represents.listed k' r found
    refine ⟨b, (mem_remove represents.distinct b).mpr ⟨member, fun equal => ?_⟩, rfl, rfl⟩
    rw [equal] at same
    exact same Std.ReflCmp.compare_self

/-- Records put into a map in turn: the last one of a key counts. -/
theorem getElem?_insertMany (list : List α) (table : Std.ExtTreeMap κ ρ) (k : κ) :
    (table.insertMany (list.map (fun a => (key a, row a))))[k]? =
      ((list.findRev? (fun a => key a = k)).map row).or table[k]? := by
  rw [List.findRev?_eq_find?_reverse]
  induction list using List.reverseRecOn with
  | nil => simp
  | append_singleton front last ih =>
    rw [List.map_append, Std.ExtTreeMap.insertMany_append, List.map_singleton,
      Std.ExtTreeMap.insertMany_list_singleton, Std.ExtTreeMap.getElem?_insert, ih, List.reverse_append,
      List.reverse_singleton, List.singleton_append, List.find?_cons]
    by_cases same : key last = k <;> simp [same, Std.LawfulEqCmp.compare_eq_iff_eq]

end Maps

end DivoomDev.Library.KeyedList
