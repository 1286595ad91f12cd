import DivoomDev.Library.KeyedList
import DivoomDev.Ics.CacheFile

/-! What `load` makes of a file that may hold anything: the hash in front of each content is read
and never compared, and an exception leaves the cache half filled. -/

namespace DivoomDev.Ics.CacheIntegrity
open DivoomDev.Library.Bytes DivoomDev.Library.Fallible DivoomDev.Library.KeyedList TextUtils
  Models Cache CacheFile

/-- Four lines of the file. -/
structure Record where
  url : Text
  hash : Text
  timestamp : Text
  content : Text
  deriving DecidableEq, Repr

def fileRecords : List Text → List Record
  | url :: hash :: timestamp :: content :: rest => ⟨url, hash, timestamp, content⟩ :: fileRecords rest
  | [_, _, _] | [_, _] | [_] | [] => []

/-- What the file records for a URL, where a later record counts. -/
def recordOf (content url : Text) : Option Record :=
  (fileRecords (getlines lineFeed content)).findRev? (fun r => r.url = url)

/-- `load` does not throw, and returns true with entries alone whose content has the hash that
is recorded for them, or returns false with the cache as it was. -/
def LoadsSoundly (hashContent : Text → UInt64) (persistPath content : Text) (cache : IcsCache) : Prop :=
  match load persistPath (some content) cache with
  | (.ok true, loaded) => ∀ (url : Text) (e : Entry), loaded.store[url]? = some e →
      ∃ r, recordOf content url = some r ∧ r.content = e.content ∧ stoull r.hash = .ok (hashContent e.content)
  | (.ok false, left) => left.store = cache.store
  | (.error _, _) => False

/-- The lines in the places of numbers are numbers, those behind the last whole record too. -/
def NumbersRead : List Text → Prop
  | _ :: hash :: timestamp :: _ :: rest =>
      (Returns (stoull hash) ∧ Returns (stoll timestamp)) ∧ NumbersRead rest
  | [_, hash, timestamp] => Returns (stoull hash) ∧ Returns (stoll timestamp)
  | [_, hash] => Returns (stoull hash)
  | [_] | [] => True

/-- The record of each URL that counts has the hash of its content. -/
def HashesMatch (hashContent : Text → UInt64) (content : Text) : Prop :=
  ∀ url r, recordOf content url = some r → stoull r.hash = .ok (hashContent r.content)

/-! ## Reading records -/

def Record.stored (r : Record) : Text × Entry :=
  (r.url, ⟨r.content, fromTimeT ((stoll r.timestamp).toOption.getD 0)⟩)

theorem lines_record {scan : LoadScan} (ready : scan.state = .url) (r : Record) {value : UInt64} {seconds : Int}
    (hash : stoull r.hash = .ok value) (timestamp : stoll r.timestamp = .ok seconds) (rest : List Text) :
    scan.lines (r.url :: r.hash :: r.timestamp :: r.content :: rest) =
      LoadScan.lines ⟨scan.store.insert r.stored.1 r.stored.2, .url, r.url, value, seconds⟩ rest := by
  simp only [LoadScan.lines, LoadScan.line, ready, hash, timestamp, Except.map, Record.stored, Except.toOption,
    Option.getD_some]

theorem lines_throws {scan : LoadScan} (ready : scan.state = .url) {url hash timestamp : Text} {rest : List Text}
    (unread : ¬(Returns (stoull hash) ∧ Returns (stoll timestamp))) :
    ¬Returns (scan.lines (url :: hash :: timestamp :: rest)).1 := by
  cases first : stoull hash with
  | error e => simp [LoadScan.lines, LoadScan.line, ready, first, Except.map]
  | ok value =>
    cases second : stoll timestamp with
    | error e => simp [LoadScan.lines, LoadScan.line, ready, first, second, Except.map]
    | ok seconds => simp [first, second] at unread

/-- From the start of a record on, the lines are read to their end exactly when the numbers are,
and then the records are put into the map in turn. -/
theorem lines_records (lines : List Text) {scan : LoadScan} (ready : scan.state = .url) :
    (Returns (scan.lines lines).1 ↔ NumbersRead lines) ∧
      (NumbersRead lines →
        (scan.lines lines).2.store = scan.store.insertMany ((fileRecords lines).map Record.stored)) := by
  match lines with
  | [] => simp [LoadScan.lines, NumbersRead, fileRecords]
  | [url] => simp [LoadScan.lines, LoadScan.line, ready, NumbersRead, fileRecords]
  | [url, hash] =>
    cases first : stoull hash <;>
      simp [LoadScan.lines, LoadScan.line, ready, first, NumbersRead, fileRecords, Except.map]
  | [url, hash, timestamp] =>
    cases first : stoull hash <;> cases second : stoll timestamp <;>
      simp [LoadScan.lines, LoadScan.line, ready, first, second, NumbersRead, fileRecords, Except.map]
  | url :: hash :: timestamp :: content :: rest =>
    by_cases numbers : Returns (stoull hash) ∧ Returns (stoll timestamp)
    · obtain ⟨⟨value, first⟩, ⟨seconds, second⟩⟩ := numbers
      have read := lines_record ready ⟨url, hash, timestamp, content⟩ first second rest
      rw [read, NumbersRead, fileRecords, List.map_cons, Std.ExtTreeMap.insertMany_cons]
      simp only [first, second, returns_ok, and_self, true_and]
      exact lines_records rest rfl
    · have throws : ¬Returns (scan.lines (url :: hash :: timestamp :: content :: rest)).1 :=
        lines_throws ready numbers
      rw [NumbersRead]
      tauto

theorem stored_records (lines : List Text) (url : Text) :
    ((∅ : Std.ExtTreeMap Text Entry).insertMany ((fileRecords lines).map Record.stored))[url]? =
      ((fileRecords lines).findRev? (fun r => r.url = url)).map (fun r => r.stored.2) := by
  have last : ((∅ : Std.ExtTreeMap Text Entry).insertMany
      ((fileRecords lines).map (fun r => (r.url, r.stored.2))))[url]? = _ := getElem?_insertMany _ _ _
  rw [Std.ExtTreeMap.getElem?_empty, Option.or_none] at last
  exact last

section
variable (hashContent : Text → UInt64) {persistPath : Text} (configured : persistPath ≠ []) (content : Text)
  (cache : IcsCache)

include configured

/-- With a file configured, the cache is loaded soundly exactly when the numbers in the file are
numbers and the hashes are those of the contents. -/
theorem load_sound_iff : LoadsSoundly hashContent persistPath content cache ↔
    NumbersRead (getlines lineFeed content) ∧ HashesMatch hashContent content := by
  obtain ⟨returns, store⟩ := lines_records (getlines lineFeed content)
    (show ({} : LoadScan).state = .url from rfl)
  simp only [LoadsSoundly, load, if_neg configured]
  cases read : LoadScan.lines {} (getlines lineFeed content) with
  | mk outcome scan =>
    rw [read] at returns store
    cases outcome with
    | error e =>
      simp only [returns_error, false_iff] at returns
      simp [Except.map, returns]
    | ok done =>
      have numbers := returns.mp (returns_ok done)
      have stored : scan.store = (∅ : Std.ExtTreeMap Text Entry).insertMany _ := store numbers
      simp only [Except.map, numbers, true_and, stored, stored_records, HashesMatch, recordOf]
      apply Iff.intro
      · intro sound url r found
        obtain ⟨r', found', _, hash⟩ := sound url r.stored.2 (by rw [found]; rfl)
        cases found.symm.trans found'
        exact hash
      · intro hashes url e found
        obtain ⟨r, recorded, rfl⟩ := Option.map_eq_some_iff.mp found
        exact ⟨r, recorded, rfl, hashes url r recorded⟩

end

/-- A calendar as `save` writes it, and a second one that is cut off behind its first line. -/
def cutFile : Text :=
  cacheText fnv1a (oneEntry (text "BEGIN:VCALENDAR\r")) ++ text "https://host/home.ics"

theorem load_sound_cut : LoadsSoundly fnv1a (text "cache.txt") cutFile {} := by
  have lines : getlines lineFeed cutFile = [text "https://host/work.ics",
      decimal (fnv1a (text "BEGIN:VCALENDAR\r")).toNat, text "1767225600", text "BEGIN:VCALENDAR\r",
      text "https://host/home.ics"] := by decide +kernel
  refine (load_sound_iff fnv1a (by decide) cutFile {}).mpr ⟨?_, fun url r recorded => ?_⟩
  · rw [lines]
    exact ⟨⟨⟨_, stoull_decimal _⟩, ⟨1767225600, by decide⟩⟩, trivial⟩
  · rw [recordOf, lines, List.findRev?_eq_find?_reverse] at recorded
    have member := List.mem_of_find?_eq_some recorded
    obtain rfl : r = _ := List.mem_singleton.mp member
    exact stoull_decimal _

/-- A content that was changed behind its hash is loaded like any other. -/
theorem changed_content_loaded : ¬∀ hashContent persistPath content cache, persistPath ≠ [] →
    LoadsSoundly hashContent persistPath content cache := by
  intro always
  have sound := always fnv1a (text "cache.txt") (text "u\n1\n0\nchanged\n") {} (by decide)
  have loaded : load (text "cache.txt") (some (text "u\n1\n0\nchanged\n")) {} =
      (.ok true, { store := (∅ : Std.ExtTreeMap Text Entry).insert (text "u") ⟨text "changed", 0⟩ }) := by
    decide +kernel
  rw [LoadsSoundly, loaded] at sound
  obtain ⟨r, recorded, _, hash⟩ := sound (text "u") ⟨text "changed", 0⟩ (by simp)
  have found : recordOf (text "u\n1\n0\nchanged\n") (text "u") =
      some ⟨text "u", text "1", text "0", text "changed"⟩ := by decide +kernel
  cases found.symm.trans recorded
  exact absurd hash (by decide +kernel)

end DivoomDev.Ics.CacheIntegrity
