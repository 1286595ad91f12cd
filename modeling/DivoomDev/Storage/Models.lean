import DivoomDev.Library.Bytes

/-! The data of the settings storage and the operations that both backends offer. -/

namespace DivoomDev.Storage.Models
open DivoomDev.Library.Bytes

structure Account where
  service : Text := []
  login : Text := []
  password : Text := []
  deriving DecidableEq, Repr

structure CalendarSource where
  url : Text := []
  priority : Int := 0
  enabled : Bool := true
  deriving DecidableEq, Repr

/-- The calls of `i_settings_storage`, and closing the store and opening it again. -/
inductive Operation where
  | upsertAccount (acc : Account)
  | getAccount (service : Text)
  | listAccounts
  | deleteAccount (service : Text)
  | upsertCalendarSource (src : CalendarSource)
  | listCalendarSources
  | removeCalendarSource (url : Text)
  | setMeta (key value : Text)
  | getMeta (key : Text)
  | listMeta
  | deleteMeta (key : Text)
  | clear
  | reopen
  deriving DecidableEq, Repr

inductive Answer where
  | done
  | account (acc : Option Account)
  | accounts (list : List Account)
  | sources (list : List CalendarSource)
  | metaValue (value : Option Text)
  | metaRows (rows : List (Text × Text))
  deriving DecidableEq, Repr

/-- The order of the sources in both backends: by falling priority, then by URL. -/
def sourceBefore (a b : CalendarSource) : Prop :=
  b.priority < a.priority ∨ (a.priority = b.priority ∧ (compare a.url b.url).isLE)

instance : DecidableRel sourceBefore := fun _ _ => inferInstanceAs (Decidable (_ ∨ _))

instance : Std.Total sourceBefore where
  total a b := by
    rcases Int.lt_trichotomy a.priority b.priority with below | same | above
    · exact .inr (.inl below)
    · by_cases urls : (compare a.url b.url).isLE
      · exact .inl (.inr ⟨same, urls⟩)
      · refine .inr (.inr ⟨same.symm, ?_⟩)
        rw [Std.OrientedCmp.lt_of_not_isLE urls]
        rfl
    · exact .inl (.inl above)

instance : IsTrans CalendarSource sourceBefore where
  trans a b c := by
    intro first second
    rcases first with above | ⟨same, urls⟩ <;> rcases second with above' | ⟨same', urls'⟩
    · exact .inl (above'.trans above)
    · exact .inl (same' ▸ above)
    · exact .inl (same ▸ above')
    · exact .inr ⟨same.trans same', Std.TransCmp.isLE_trans urls urls'⟩

theorem sourceBefore_antisymm {a b : CalendarSource} (before : sourceBefore a b)
    (behind : sourceBefore b a) : a.url = b.url := by
  rcases before with above | ⟨_, urls⟩ <;> rcases behind with above' | ⟨same, urls'⟩
  · omega
  · omega
  · omega
  · exact Std.LawfulEqCmp.eq_of_compare (Std.OrientedCmp.isLE_antisymm urls urls')

def sortSources (sources : List CalendarSource) : List CalendarSource :=
  sources.insertionSort sourceBefore

/-- With one source for each URL the order they are listed in before does not count. -/
theorem sortSources_congr {a b : List CalendarSource} (same : a.Perm b)
    (distinct : (a.map CalendarSource.url).Nodup) : sortSources a = sortSources b := by
  have permA := List.perm_insertionSort sourceBefore a
  have permB := List.perm_insertionSort sourceBefore b
  refine List.Perm.eq_of_pairwise (fun x y inA inB before behind => ?_)
    (List.pairwise_insertionSort _ _) (List.pairwise_insertionSort _ _) (permA.trans (same.trans permB.symm))
  exact List.inj_on_of_nodup_map distinct (permA.mem_iff.mp inA)
    (same.mem_iff.mpr (permB.mem_iff.mp inB)) (sourceBefore_antisymm before behind)

def schemaVersion : Text := text "schema_version"

end DivoomDev.Storage.Models
