import DivoomDev.Ics.Clocks

/-! The in-memory cache of calendar contents. Every call reads the clock itself, so each
takes the reading as an argument. -/

namespace DivoomDev.Ics.Cache
open DivoomDev.Library.Bytes Models Clocks

/-- `std::chrono::milliseconds` as a number of 100 ns. -/
def milliseconds (count : Int) : Int := count * 10000

structure Entry where
  content : Text
  fetchedAt : TimePoint
  deriving DecidableEq, Repr

/-- `ics_cache`; both durations are in milliseconds. -/
structure IcsCache where
  ttl : Int := 300000
  staleTtl : Int := 3600000
  store : Std.ExtTreeMap Text Entry := ∅
  deriving DecidableEq, Repr

/-- The entry has not reached the end of a lifetime. -/
def younger (lifetime : Int) (now : TimePoint) (e : Entry) : Bool := now - e.fetchedAt < milliseconds lifetime

theorem younger_iff {lifetime : Int} {now : TimePoint} {e : Entry} :
    younger lifetime now e = true ↔ now - e.fetchedAt < milliseconds lifetime :=
  decide_eq_true_iff

theorem not_younger_iff {lifetime : Int} {now : TimePoint} {e : Entry} :
    younger lifetime now e = false ↔ milliseconds lifetime ≤ now - e.fetchedAt := by
  rw [younger, decide_eq_false_iff_not, not_lt]

/-- The lifetime fits the ticks of the clock. -/
def Held (p : Platform) (lifetime : Int) : Prop := (⟨64, p.point (milliseconds lifetime)⟩ : Computed).Fits

instance (p : Platform) : DecidablePred (Held p) := fun _ => inferInstanceAs (Decidable (Computed.Fits _))

/-- A lifetime whose ticks fit is itself a 64-bit number of milliseconds. -/
theorem fits_of_held {p : Platform} {lifetime : Int} (held : Held p lifetime) :
    (⟨64, lifetime⟩ : Computed).Fits := by
  cases p <;> simp only [Held, Computed.Fits, milliseconds, Platform.point, Platform.perTick] at held ⊢ <;> omega

namespace IcsCache

/-- `is_fresh`, where the lifetime is converted to the ticks of the clock. -/
def isFresh (p : Platform) (cache : IcsCache) (now : TimePoint) (e : Entry) : Bool :=
  p.point (now - e.fetchedAt) < int64 (p.point (milliseconds cache.ttl))

def isStale (p : Platform) (cache : IcsCache) (now : TimePoint) (e : Entry) : Bool :=
  p.point (now - e.fetchedAt) < int64 (p.point (milliseconds (int64 (cache.ttl + cache.staleTtl))))

/-- The content of an entry that is kept. -/
def lookup (cache : IcsCache) (url : Text) (keep : Entry → Bool) : Option Text :=
  match cache.store[url]? with
  | none => none
  | some e => if keep e then some e.content else none

def get (p : Platform) (cache : IcsCache) (now : TimePoint) (url : Text) : Option Text :=
  cache.lookup url (cache.isFresh p now)

def getStale (p : Platform) (cache : IcsCache) (now : TimePoint) (url : Text) : Option Text :=
  cache.lookup url (cache.isStale p now)

def put (cache : IcsCache) (now : TimePoint) (url content : Text) : IcsCache :=
  { cache with store := cache.store.insert url ⟨content, now⟩ }

/-- `has`, which reads the clock for the fallback only where the entry is not fresh. -/
def has (p : Platform) (cache : IcsCache) (freshNow staleNow : TimePoint) (url : Text) : Bool :=
  match cache.store[url]? with
  | none => false
  | some e => cache.isFresh p freshNow e || cache.isStale p staleNow e

def isStaleFresh (p : Platform) (cache : IcsCache) (freshNow staleNow : TimePoint) (url : Text) : Bool :=
  match cache.store[url]? with
  | none => false
  | some e => !cache.isFresh p freshNow e && cache.isStale p staleNow e

def setTtl (cache : IcsCache) (ttl : Int) : IcsCache := { cache with ttl }

def setStaleTtl (cache : IcsCache) (staleTtl : Int) : IcsCache := { cache with staleTtl }

def remove (cache : IcsCache) (url : Text) : IcsCache := { cache with store := cache.store.erase url }

def clear (cache : IcsCache) : IcsCache := { cache with store := ∅ }

def size (cache : IcsCache) : Nat := cache.store.size

variable (cache : IcsCache) (now : TimePoint) (url content : Text)

@[simp] theorem put_ttl : (cache.put now url content).ttl = cache.ttl := rfl

@[simp] theorem put_staleTtl : (cache.put now url content).staleTtl = cache.staleTtl := rfl

@[simp] theorem put_store : (cache.put now url content).store = cache.store.insert url ⟨content, now⟩ := rfl

variable {cache now url content}

theorem lookup_eq_some {keep : Entry → Bool} : cache.lookup url keep = some content ↔
    ∃ e, cache.store[url]? = some e ∧ e.content = content ∧ keep e = true := by
  unfold lookup
  cases cache.store[url]? with
  | none => simp
  | some e =>
    simp only [Option.ite_none_right_eq_some, Option.some.injEq, exists_eq_left']
    exact and_comm

theorem lookup_eq_none {keep : Entry → Bool} : cache.lookup url keep = none ↔
    ∀ e, cache.store[url]? = some e → keep e = false := by
  unfold lookup
  cases cache.store[url]? with
  | none => simp
  | some e => simp

/-! ## Lifetimes that fit -/

section Held
variable {p : Platform} {e : Entry}

theorem isFresh_eq (held : Held p cache.ttl) :
    cache.isFresh p now e = younger cache.ttl now e := by
  rw [isFresh, int64_eq held]
  exact decide_eq_decide.mpr Platform.point_lt

theorem isStale_eq (held : Held p (cache.ttl + cache.staleTtl)) :
    cache.isStale p now e = younger (cache.ttl + cache.staleTtl) now e := by
  rw [isStale, int64_eq (fits_of_held held), int64_eq held]
  exact decide_eq_decide.mpr Platform.point_lt

theorem get_eq (held : Held p cache.ttl) : cache.get p now url = cache.lookup url (younger cache.ttl now) :=
  congrArg (cache.lookup url) (funext fun _ => isFresh_eq held)

theorem getStale_eq (held : Held p (cache.ttl + cache.staleTtl)) :
    cache.getStale p now url = cache.lookup url (younger (cache.ttl + cache.staleTtl) now) :=
  congrArg (cache.lookup url) (funext fun _ => isStale_eq held)

end Held

end IcsCache

/-- With a longer lifetime a fresh entry is not too old for the fallback either. -/
theorem milliseconds_mono {shorter longer : Int} (le : shorter ≤ longer) :
    milliseconds shorter ≤ milliseconds longer := by
  simp only [milliseconds]
  omega

end DivoomDev.Ics.Cache
