import DivoomDev.Library.Fallible
import DivoomDev.Ics.Cache

/-! The calendar cache on disk: four lines for each entry, written by `save` and read back
by `load`. -/

namespace DivoomDev.Ics.CacheFile
open DivoomDev.Library.Bytes DivoomDev.Library.Fallible TextUtils Models Cache

/-- One pass of the loop in `save`. The hash of a content is the standard library's. -/
def entryLines (hashContent : Text → UInt64) (url : Text) (e : Entry) : List Text :=
  [url, decimal (hashContent e.content).toNat, decimal (toTimeT e.fetchedAt), e.content]

def cacheText (hashContent : Text → UInt64) (cache : IcsCache) : Text :=
  joinLines lineFeed (cache.store.toList.flatMap (fun m => entryLines hashContent m.1 m.2))

/-- What `save` reports, and the file at the path behind it. `disk` is what opening the file
and writing a text leaves in it, unless it does not open; `save` looks at nothing else. -/
def save (hashContent : Text → UInt64) (disk : Text → Option Text) (persistPath : Text)
    (cache : IcsCache) (file : Option Text) : Bool × Option Text :=
  if persistPath = [] then (true, file)
  else
    match disk (cacheText hashContent cache) with
    | none => (false, file)
    | some written => (true, some written)

/-- What `load` expects the next line to be, from 0 to 3. -/
inductive LoadState where
  | url
  | hash
  | timestamp
  | content
  deriving DecidableEq, Repr

/-- The local variables of `load` and the map it fills. -/
structure LoadScan where
  store : Std.ExtTreeMap Text Entry := ∅
  state : LoadState := .url
  url : Text := []
  expectedHash : UInt64 := 0
  timestamp : Int := 0
  deriving DecidableEq, Repr

def LoadScan.line (scan : LoadScan) (line : Text) : Except StdError LoadScan :=
  match scan.state with
  | .url => .ok { scan with url := line, state := .hash }
  | .hash => (stoull line).map (fun value => { scan with expectedHash := value, state := .timestamp })
  | .timestamp => (stoll line).map (fun value => { scan with timestamp := value, state := .content })
  -- one line is the whole content, and the hash is not looked at
  | .content => .ok { scan with
      store := scan.store.insert scan.url ⟨line, fromTimeT scan.timestamp⟩, state := .url }

/-- The loop of `load`. An exception leaves the entries that were read before it. -/
def LoadScan.lines (scan : LoadScan) : List Text → Except StdError Unit × LoadScan
  | [] => (.ok (), scan)
  | line :: rest =>
      match scan.line line with
      | .ok next => next.lines rest
      | .error e => (.error e, scan)

def load (persistPath : Text) (file : Option Text) (cache : IcsCache) :
    Except StdError Bool × IcsCache :=
  if persistPath = [] then (.ok true, cache)
  else
    match file with
    | none => (.ok false, cache)
    | some content =>
        let read := LoadScan.lines {} (getlines lineFeed content)
        (read.1.map (fun _ => true), { cache with store := read.2.store })

/-! ## Entries that are read back -/

theorem forall_stored {store : Std.ExtTreeMap Text Entry} {P : Text → Entry → Prop} :
    (∀ (url : Text) (e : Entry), store[url]? = some e → P url e) ↔ ∀ m ∈ store.toList, P m.1 m.2 := by
  apply Iff.intro
  · intro all m member
    exact all _ _ (Std.ExtTreeMap.mem_toList_iff_getElem?_eq_some.mp member)
  · intro all url e found
    exact all (url, e) (Std.ExtTreeMap.mem_toList_iff_getElem?_eq_some.mpr found)

/-- A time point of the 64-bit clock that falls on a whole second. -/
def WholeSecond (tp : TimePoint) : Prop := ticksPerSecond ∣ tp ∧ llongMin ≤ tp ∧ tp ≤ llongMax

instance : DecidablePred WholeSecond := fun _ => inferInstanceAs (Decidable (_ ∧ _))

theorem fromTimeT_toTimeT {tp : TimePoint} (whole : WholeSecond tp) : fromTimeT (toTimeT tp) = tp :=
  Int.tdiv_mul_cancel whole.1

theorem toTimeT_range {tp : TimePoint} (whole : WholeSecond tp) :
    llongMin ≤ toTimeT tp ∧ toTimeT tp ≤ llongMax := by
  have same : toTimeT tp * ticksPerSecond = tp := fromTimeT_toTimeT whole
  have low : llongMin ≤ toTimeT tp * ticksPerSecond := same.symm ▸ whole.2.1
  have high : toTimeT tp * ticksPerSecond ≤ llongMax := same.symm ▸ whole.2.2
  simp only [ticksPerSecond, llongMin, llongMax] at low high ⊢
  omega

variable (hashContent : Text → UInt64)

theorem lines_entry {scan : LoadScan} (ready : scan.state = .url) (url : Text) {e : Entry}
    (whole : WholeSecond e.fetchedAt) (rest : List Text) :
    scan.lines (entryLines hashContent url e ++ rest) =
      LoadScan.lines ⟨scan.store.insert url e, .url, url, hashContent e.content, toTimeT e.fetchedAt⟩
        rest := by
  simp only [entryLines, List.cons_append, List.nil_append, LoadScan.lines, LoadScan.line, ready,
    stoull_decimal, stoll_decimal (toTimeT_range whole), Except.map, fromTimeT_toTimeT whole]

/-- Whatever the map holds so far, the lines of the entries put the entries into it. -/
theorem lines_entries {entries : List (Text × Entry)} (whole : ∀ m ∈ entries, WholeSecond m.2.fetchedAt)
    {scan : LoadScan} (ready : scan.state = .url) :
    ∃ read, scan.lines (entries.flatMap (fun m => entryLines hashContent m.1 m.2)) = (.ok (), read) ∧
      read.store = scan.store.insertMany entries := by
  induction entries generalizing scan with
  | nil => exact ⟨scan, rfl, Std.ExtTreeMap.insertMany_nil.symm⟩
  | cons m entries ih =>
    obtain ⟨first, others⟩ := List.forall_mem_cons.mp whole
    rw [List.flatMap_cons, lines_entry hashContent ready m.1 first, Std.ExtTreeMap.insertMany_cons]
    exact ih others rfl

theorem insertMany_toList (store : Std.ExtTreeMap Text Entry) :
    (∅ : Std.ExtTreeMap Text Entry).insertMany store.toList = store := by
  apply Std.ExtTreeMap.ext_getElem?
  intro url
  cases found : store[url]? with
  | some e =>
    exact Std.ExtTreeMap.getElem?_insertMany_list_of_mem Std.ReflCmp.compare_self
      store.distinct_keys_toList (Std.ExtTreeMap.mem_toList_iff_getElem?_eq_some.mpr found)
  | none =>
    apply Std.ExtTreeMap.getElem?_eq_none
    have missing : url ∉ store := by
      rw [Std.ExtTreeMap.mem_iff_isSome_getElem?, found]
      exact Bool.false_ne_true
    simpa [Std.ExtTreeMap.mem_insertMany_list] using missing

/-! ## Contents of one line -/

def OneLine (store : Std.ExtTreeMap Text Entry) : Prop :=
  ∀ (url : Text) (e : Entry), store[url]? = some e → lineFeed ∉ e.content

theorem line_oneLine {scan next : LoadScan} {line : Text} (whole : lineFeed ∉ line)
    (kept : OneLine scan.store) (read : scan.line line = .ok next) : OneLine next.store := by
  unfold LoadScan.line at read
  cases state : scan.state with
  | url =>
    simp only [state, Except.ok.injEq] at read
    exact read ▸ kept
  | hash =>
    simp only [state] at read
    obtain ⟨_, _, same⟩ := map_eq_ok.mp read
    exact same ▸ kept
  | timestamp =>
    simp only [state] at read
    obtain ⟨_, _, same⟩ := map_eq_ok.mp read
    exact same ▸ kept
  | content =>
    simp only [state, Except.ok.injEq] at read
    subst read
    intro url e found
    rw [Std.ExtTreeMap.getElem?_insert] at found
    split_ifs at found
    · cases found
      exact whole
    · exact kept url e found

theorem lines_oneLine {lines : List Text} (whole : ∀ line ∈ lines, lineFeed ∉ line) {scan : LoadScan}
    (kept : OneLine scan.store) : OneLine (scan.lines lines).2.store := by
  induction lines generalizing scan with
  | nil => exact kept
  | cons line rest ih =>
    obtain ⟨first, others⟩ := List.forall_mem_cons.mp whole
    rw [LoadScan.lines]
    cases read : scan.line line with
    | ok next => exact ih others (line_oneLine first kept read)
    | error e => exact kept

/-- Whatever the file holds, `load` never puts a content of two lines into the map. -/
theorem load_oneLine {persistPath : Text} (configured : persistPath ≠ []) (content : Text)
    (cache : IcsCache) : OneLine (load persistPath (some content) cache).2.store := by
  rw [load, if_neg configured]
  exact lines_oneLine (fun _ member => not_mem_of_mem_getlines member) (by simp [OneLine])

theorem entryLines_whole {entries : List (Text × Entry)}
    (whole : ∀ m ∈ entries, lineFeed ∉ m.1 ∧ lineFeed ∉ m.2.content) :
    ∀ line ∈ entries.flatMap (fun m => entryLines hashContent m.1 m.2), lineFeed ∉ line := by
  intro line member
  obtain ⟨m, inEntries, inLines⟩ := List.mem_flatMap.mp member
  obtain ⟨url, content⟩ := whole m inEntries
  have number (value : Int) : lineFeed ∉ decimal value := fun inside => by
    rcases decimal_bytes inside with minus | digit
    · exact absurd minus (by decide)
    · exact absurd digit (by decide)
  simp only [entryLines, List.mem_cons, List.not_mem_nil, or_false] at inLines
  rcases inLines with rfl | rfl | rfl | rfl
  · exact url
  · exact number _
  · exact number _
  · exact content

section
variable {cache other : IcsCache} {persistPath : Text} {file : Option Text} {disk : Text → Option Text}

theorem load_cacheText (configured : persistPath ≠ [])
    (urls : ∀ (url : Text) (e : Entry), cache.store[url]? = some e → lineFeed ∉ url)
    (whole : ∀ (url : Text) (e : Entry), cache.store[url]? = some e → WholeSecond e.fetchedAt)
    (oneLine : OneLine cache.store) :
    load persistPath (some (cacheText hashContent cache)) other =
      (.ok true, { other with store := cache.store }) := by
  have inLines : ∀ m ∈ cache.store.toList, lineFeed ∉ m.1 ∧ lineFeed ∉ m.2.content := fun m member =>
    ⟨forall_stored.mp urls m member, forall_stored.mp oneLine m member⟩
  have lines : getlines lineFeed (cacheText hashContent cache) =
      cache.store.toList.flatMap (fun m => entryLines hashContent m.1 m.2) := by
    have back := getlines_joinLines (entryLines_whole hashContent inLines) []
    rw [List.append_nil, getlines, List.append_nil] at back
    exact back
  obtain ⟨read, readLines, store⟩ := lines_entries hashContent
    (forall_stored.mp whole) (show ({} : LoadScan).state = .url from rfl)
  rw [load, if_neg configured]
  simp only [lines, readLines, store, insertMany_toList]
  rfl

/-- With a file configured, the map comes back exactly when no content has a line break. -/
theorem load_restores_iff
    (kept : ∀ written file', disk written = some file' → file' = written)
    (urls : ∀ (url : Text) (e : Entry), cache.store[url]? = some e → lineFeed ∉ url)
    (whole : ∀ (url : Text) (e : Entry), cache.store[url]? = some e → WholeSecond e.fetchedAt)
    (saved : (save hashContent disk persistPath cache file).1 = true) :
    (load persistPath (save hashContent disk persistPath cache file).2 other).2.store = cache.store ↔
      (persistPath = [] → other.store = cache.store) ∧ (persistPath ≠ [] → OneLine cache.store) := by
  by_cases configured : persistPath = []
  · simp [load, configured]
  · simp only [save, if_neg configured] at saved ⊢
    cases opened : disk (cacheText hashContent cache) with
    | none => simp [opened] at saved
    | some file' =>
      rw [kept _ _ opened]
      apply Iff.intro
      · intro restored
        apply And.intro (fun empty => absurd empty configured)
        intro _
        rw [← restored]
        exact load_oneLine configured _ _
      · intro given
        rw [load_cacheText hashContent configured urls whole (given.2 configured)]

end

/-- A hash as a standard library may have it: 64-bit FNV-1a. -/
def fnv1a (content : Text) : UInt64 :=
  content.foldl (fun hash c => (hash ^^^ c.toUInt64) * 1099511628211) 14695981039346656037

def oneEntry (content : Text) : IcsCache :=
  { store := (∅ : Std.ExtTreeMap Text Entry).insert (text "https://host/work.ics")
      ⟨content, fromTimeT 1767225600⟩ }

theorem load_restores_line :
    (load (text "cache.txt")
      (save fnv1a some (text "cache.txt") (oneEntry (text "BEGIN:VCALENDAR\r")) none).2 {}).2.store =
    (oneEntry (text "BEGIN:VCALENDAR\r")).store :=
  (load_restores_iff fnv1a (fun _ _ same => (Option.some.inj same).symm)
    (forall_stored.mpr (by decide +kernel)) (forall_stored.mpr (by decide +kernel)) rfl).mpr
    ⟨by decide, fun _ => forall_stored.mpr (by decide +kernel)⟩

/-- A calendar of three lines: the last of them stands where a hash is expected. -/
theorem load_loses_lines :
    let cache := oneEntry (text "BEGIN:VCALENDAR\r\nVERSION:2.0\r\nEND:VCALENDAR\r\n")
    let saved := save fnv1a some (text "cache.txt") cache none
    (∀ m ∈ cache.store.toList, lineFeed ∉ m.1 ∧ WholeSecond m.2.fetchedAt) ∧ saved.1 = true ∧
    load (text "cache.txt") saved.2 {} =
      (.error .invalidArgument, oneEntry (text "BEGIN:VCALENDAR\r")) ∧
    (load (text "cache.txt") saved.2 {}).2.store ≠ cache.store := by
  decide +kernel

end DivoomDev.Ics.CacheFile
