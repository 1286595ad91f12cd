import DivoomDev.Library.History
import DivoomDev.Library.Run
import DivoomDev.Ics.Cache

/-! The cache as a whole: what each of its calls answers, told from the calls before it alone,
and how an entry ages while nothing is stored for its URL. -/

namespace DivoomDev.Ics.CacheHistory
open DivoomDev.Library.Bytes DivoomDev.Library.History DivoomDev.Library.Run Models Clocks Cache

/-- The calls of `ics_cache`, with what they read from the clock. -/
inductive Call where
  | put (now : TimePoint) (url content : Text)
  | remove (url : Text)
  | clear
  | setTtl (ttl : Int)
  | setStaleTtl (staleTtl : Int)
  | ttl
  | staleTtl
  | get (now : TimePoint) (url : Text)
  | getStale (now : TimePoint) (url : Text)
  | has (freshNow staleNow : TimePoint) (url : Text)
  | isStaleFresh (freshNow staleNow : TimePoint) (url : Text)
  | size
  deriving DecidableEq, Repr

inductive Answer where
  | done
  | content (found : Option Text)
  | flag (value : Bool)
  | count (value : Nat)
  | duration (value : Int)
  deriving DecidableEq, Repr

def perform (p : Platform) (cache : IcsCache) : Call → Answer × IcsCache
  | .put now url content => (.done, cache.put now url content)
  | .remove url => (.done, cache.remove url)
  | .clear => (.done, cache.clear)
  | .setTtl ttl => (.done, cache.setTtl ttl)
  | .setStaleTtl staleTtl => (.done, cache.setStaleTtl staleTtl)
  | .ttl => (.duration cache.ttl, cache)
  | .staleTtl => (.duration cache.staleTtl, cache)
  | .get now url => (.content (cache.get p now url), cache)
  | .getStale now url => (.content (cache.getStale p now url), cache)
  | .has freshNow staleNow url => (.flag (cache.has p freshNow staleNow url), cache)
  | .isStaleFresh freshNow staleNow url => (.flag (cache.isStaleFresh p freshNow staleNow url), cache)
  | .size => (.count cache.size, cache)

/-! ## The calls as a history -/

def entryEvent : Call → Option (Event Text Entry)
  | .put now url content => some (.put url ⟨content, now⟩)
  | .remove url => some (.drop url)
  | .clear => some .wipe
  | _ => none

def ttlSet : Call → Option Int
  | .setTtl ttl => some ttl
  | _ => none

def staleTtlSet : Call → Option Int
  | .setStaleTtl staleTtl => some staleTtl
  | _ => none

/-- The last duration that a call set, or that of the constructor. -/
def lastSet (set : Call → Option Int) (constructed : Int) (done : List Call) : Int :=
  ((done.filterMap set).getLast?).getD constructed

/-- What is stored for a URL is what was put for it last and not removed or cleared since. -/
def storedFor (url : Text) (done : List Call) : Option Entry := held url (done.filterMap entryEvent)

/-- What a call answers behind the calls that are done, for a cache made with two durations. -/
def recalled (constructed : Int × Int) (done : List Call) : Call → Answer :=
  let ttl := lastSet ttlSet constructed.1 done
  let whole := ttl + lastSet staleTtlSet constructed.2 done
  fun
  | .ttl => .duration ttl
  | .staleTtl => .duration (whole - ttl)
  | .get now url => .content (((storedFor url done).filter (younger ttl now)).map Entry.content)
  | .getStale now url => .content (((storedFor url done).filter (younger whole now)).map Entry.content)
  | .has freshNow staleNow url =>
      .flag ((storedFor url done).any (fun e => younger ttl freshNow e || younger whole staleNow e))
  | .isStaleFresh freshNow staleNow url =>
      .flag ((storedFor url done).any (fun e => !younger ttl freshNow e && younger whole staleNow e))
  | .size => .count (rows (done.filterMap entryEvent)).length
  | _ => .done

/-! ## The cache keeps the history -/

structure Keeps (constructed : Int × Int) (done : List Call) (cache : IcsCache) : Prop where
  ttl : cache.ttl = lastSet ttlSet constructed.1 done
  staleTtl : cache.staleTtl = lastSet staleTtlSet constructed.2 done
  store : cache.store = replay (done.filterMap entryEvent)

theorem lastSet_append (set : Call → Option Int) (constructed : Int) (done : List Call) (call : Call) :
    lastSet set constructed (done ++ [call]) = (set call).getD (lastSet set constructed done) := by
  rw [lastSet, List.filterMap_append]
  cases happens : set call with
  | none => simp [happens, lastSet]
  | some duration => simp [happens]

/-- The clock can hold the lifetimes that are set behind the calls that are done. -/
def HeldBehind (p : Platform) (constructed : Int × Int) (done : List Call) : Prop :=
  Held p (lastSet ttlSet constructed.1 done) ∧
    Held p (lastSet ttlSet constructed.1 done + lastSet staleTtlSet constructed.2 done)

instance (p : Platform) (constructed : Int × Int) : DecidablePred (HeldBehind p constructed) :=
  fun _ => inferInstanceAs (Decidable (_ ∧ _))

theorem recalled_eq {p : Platform} {constructed : Int × Int} {done : List Call} {cache : IcsCache}
    (held : HeldBehind p constructed done) (keeps : Keeps constructed done cache) (call : Call) :
    (perform p cache call).1 = recalled constructed done call := by
  have stored (url : Text) : cache.store[url]? = storedFor url done := by
    rw [keeps.store, getElem?_replay, storedFor]
  obtain ⟨ttl, whole⟩ := held
  rw [← keeps.ttl] at ttl whole
  rw [← keeps.staleTtl] at whole
  have fresh (now : TimePoint) : cache.isFresh p now = younger (lastSet ttlSet constructed.1 done) now := by
    rw [← keeps.ttl]
    exact funext fun _ => IcsCache.isFresh_eq ttl
  have stale (now : TimePoint) : cache.isStale p now = younger
      (lastSet ttlSet constructed.1 done + lastSet staleTtlSet constructed.2 done) now := by
    rw [← keeps.ttl, ← keeps.staleTtl]
    exact funext fun _ => IcsCache.isStale_eq whole
  cases call with
  | get now url =>
    simp only [perform, recalled, IcsCache.get, IcsCache.lookup, stored, fresh]
    cases storedFor url done <;> simp [Option.filter]
  | getStale now url =>
    simp only [perform, recalled, IcsCache.getStale, IcsCache.lookup, stored, stale]
    cases storedFor url done <;> simp [Option.filter]
  | has freshNow staleNow url =>
    simp only [perform, recalled, IcsCache.has, stored, fresh, stale]
    cases storedFor url done <;> rfl
  | isStaleFresh freshNow staleNow url =>
    simp only [perform, recalled, IcsCache.isStaleFresh, stored, fresh, stale]
    cases storedFor url done <;> rfl
  | ttl => simp [perform, recalled, keeps.ttl]
  | staleTtl => simp [perform, recalled, keeps.staleTtl]
  | size =>
    simp only [perform, recalled, IcsCache.size, keeps.store, ← Std.ExtTreeMap.length_toList, toList_replay,
      sortRows, List.length_insertionSort]
  | _ => rfl

theorem perform_store (p : Platform) (cache : IcsCache) (call : Call) :
    (perform p cache call).2.store = (entryEvent call).elim cache.store (apply cache.store) := by
  cases call <;> rfl

theorem perform_ttl (p : Platform) (cache : IcsCache) (call : Call) :
    (perform p cache call).2.ttl = (ttlSet call).getD cache.ttl ∧
      (perform p cache call).2.staleTtl = (staleTtlSet call).getD cache.staleTtl := by
  cases call <;> exact ⟨rfl, rfl⟩

theorem perform_keeps {p : Platform} {constructed : Int × Int} {done : List Call} {cache : IcsCache}
    (keeps : Keeps constructed done cache) (call : Call) :
    Keeps constructed (done ++ [call]) (perform p cache call).2 where
  ttl := by rw [(perform_ttl p cache call).1, lastSet_append, keeps.ttl]
  staleTtl := by rw [(perform_ttl p cache call).2, lastSet_append, keeps.staleTtl]
  store := by
    rw [perform_store, keeps.store]
    exact (replay_filterMap_append entryEvent [] done call).symm

/-- A cache made with two durations answers every call, whatever the clock shows, by what was
put last and by the durations that were set last, as long as the clock can hold these. -/
theorem cache_recalls {p : Platform} {ttl staleTtl : Int} {calls : List Call}
    (held : ∀ done ∈ calls.inits, HeldBehind p (ttl, staleTtl) done) :
    outputs (perform p) { ttl, staleTtl } calls = outputsBy (recalled (ttl, staleTtl)) [] calls :=
  outputs_eq_outputsBy (I := Keeps (ttl, staleTtl))
    (fun _ _ call held keeps => ⟨recalled_eq held keeps call, perform_keeps keeps call⟩) ⟨rfl, rfl, rfl⟩ held

/-- A body that is returned until its lifetime is set to less than its age. -/
def agingCalls : List Call :=
  [.put 0 (text "u") (text "x"), .get 10000000 (text "u"), .setTtl 500, .get 10000000 (text "u")]

theorem cache_recalls_aging :
    outputsBy (recalled (300000, 3600000)) [] agingCalls =
        [.done, .content (some (text "x")), .done, .content none] ∧
      outputs (perform .msvc) { ttl := 300000, staleTtl := 3600000 } agingCalls =
        outputsBy (recalled (300000, 3600000)) [] agingCalls :=
  ⟨by decide +kernel, cache_recalls (by decide +kernel)⟩

/-! ## Entries that age -/

/-- The calls behind which an entry of the URL may be younger or live longer. -/
def Renews (url : Text) : Call → Prop
  | .put _ other _ => other = url
  | .setTtl _ | .setStaleTtl _ => True
  | _ => False

def after (p : Platform) (cache : IcsCache) (calls : List Call) : IcsCache :=
  calls.foldl (fun cache call => (perform p cache call).2) cache

theorem perform_keepsEntry (p : Platform) (cache : IcsCache) {url : Text} {call : Call} (quiet : ¬Renews url call) :
    (perform p cache call).2.ttl = cache.ttl ∧ (perform p cache call).2.staleTtl = cache.staleTtl ∧
      ∀ e, (perform p cache call).2.store[url]? = some e → cache.store[url]? = some e := by
  cases call with
  | put now other content =>
    refine ⟨rfl, rfl, fun e found => ?_⟩
    rw [perform, IcsCache.put, Std.ExtTreeMap.getElem?_insert,
      if_neg (fun same => quiet (Std.LawfulEqCmp.eq_of_compare same))] at found
    exact found
  | remove other =>
    refine ⟨rfl, rfl, fun e found => ?_⟩
    rw [perform, IcsCache.remove, Std.ExtTreeMap.getElem?_erase] at found
    split_ifs at found
    exact found
  | clear => exact ⟨rfl, rfl, fun e found => by simp [perform, IcsCache.clear] at found⟩
  | setTtl _ => exact absurd trivial quiet
  | setStaleTtl _ => exact absurd trivial quiet
  | _ => exact ⟨rfl, rfl, fun _ found => found⟩

theorem after_keepsEntry (p : Platform) (cache : IcsCache) {url : Text} {calls : List Call}
    (quiet : ∀ call ∈ calls, ¬Renews url call) :
    (after p cache calls).ttl = cache.ttl ∧ (after p cache calls).staleTtl = cache.staleTtl ∧
      ∀ e, (after p cache calls).store[url]? = some e → cache.store[url]? = some e := by
  induction calls generalizing cache with
  | nil => exact ⟨rfl, rfl, fun _ found => found⟩
  | cons call rest ih =>
    obtain ⟨here, later⟩ := List.forall_mem_cons.mp quiet
    obtain ⟨ttl, staleTtl, store⟩ := perform_keepsEntry p cache here
    obtain ⟨ttl', staleTtl', store'⟩ := ih (perform p cache call).2 later
    exact ⟨ttl'.trans ttl, staleTtl'.trans staleTtl, fun e found => store e (store' e found)⟩

/-- While nothing is put for a URL and no lifetime is set, a content that is no longer returned
does not come back: what `get` and `get_stale` return later they return now. -/
theorem content_only_vanishes {p : Platform} {cache : IcsCache} {url : Text} {calls : List Call}
    (quiet : ∀ call ∈ calls, ¬Renews url call) {now later : TimePoint} (passed : now ≤ later) (content : Text) :
    ((after p cache calls).get p later url = some content → cache.get p now url = some content) ∧
      ((after p cache calls).getStale p later url = some content → cache.getStale p now url = some content) := by
  obtain ⟨ttl, staleTtl, store⟩ := after_keepsEntry p cache quiet
  have aged (e : Entry) : p.point (now - e.fetchedAt) ≤ p.point (later - e.fetchedAt) :=
    Platform.point_le.mpr (Int.sub_le_sub_right passed _)
  simp only [IcsCache.get, IcsCache.getStale, IcsCache.lookup_eq_some, IcsCache.isFresh, IcsCache.isStale,
    decide_eq_true_eq, ttl, staleTtl]
  apply And.intro
  · intro given
    obtain ⟨e, found, same, young⟩ := given
    exact ⟨e, store e found, same, (aged e).trans_lt young⟩
  · intro given
    obtain ⟨e, found, same, young⟩ := given
    exact ⟨e, store e found, same, (aged e).trans_lt young⟩

end DivoomDev.Ics.CacheHistory
