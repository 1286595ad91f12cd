import DivoomDev.Library.JsonValues
import DivoomDev.Storage.Models

/-! The JSON backend: a document in memory, and a file that every change rewrites. The JSON
library (with `dump(2)` as its writer) and what the file system does to each step of a save
are parameters. -/

namespace DivoomDev.Storage.JsonBackend
open DivoomDev.Library.Bytes DivoomDev.Library.JsonValues Models

/-- The document of the backend. It is an object at all times, so it is kept as one. -/
abbrev Document := Std.ExtTreeMap Text Json

def accountsKey : Text := text "accounts"
def sourcesKey : Text := text "calendar_sources"
def metaKey : Text := text "meta"

def defaultMembers : List (Text × Json) :=
  [(schemaVersion, .integer 1), (accountsKey, .array []), (sourcesKey, .array []),
    (metaKey, .object [])]

def defaultDocument : Document := Std.ExtTreeMap.ofList defaultMembers

def toJson (doc : Document) : Json := .object doc.toList

/-- `doc_[key]`, which finds null under a key that is not there. -/
def part (doc : Document) (key : Text) : Json := (doc[key]?).getD .null

/-! ## The file -/

/-- The file of the backend and the temporary file next to it. -/
structure Disk where
  dest : Option Text := none
  tmp : Option Text := none
  deriving DecidableEq, Repr

/-- Behind which step of a save the process stops. -/
inductive StopPoint where
  | directories
  | opened
  | written
  | removed
  deriving DecidableEq, Repr

/-- What the file system does to one save: which steps fail, how much of the text reaches the
temporary file, and where the process stops, if it does. -/
structure SaveIo where
  opens : Bool := true
  written : Option Nat := none
  removes : Bool := true
  renames : Bool := true
  stop : Option StopPoint := none
  deriving DecidableEq, Repr

inductive SaveResult where
  | returned (ok : Bool)
  | threw
  | stopped
  deriving DecidableEq, Repr

/-- The bytes that a write leaves; a short one is not noticed. -/
def SaveIo.write (io : SaveIo) (content : Text) : Text :=
  match io.written with
  | none => content
  | some count => content.take count

/-- `atomic_replace` where it is a removal and a renaming. The outcome of the removal is
overwritten by that of the renaming. -/
def atomicReplace (io : SaveIo) (disk : Disk) : SaveResult × Disk :=
  let disk := if io.removes then { disk with dest := none } else disk
  if io.stop = some .removed then (.stopped, disk)
  else if io.renames then (.returned true, { dest := disk.tmp, tmp := none })
  else (.returned false, disk)

def save (lib : JsonLib) (io : SaveIo) (doc : Document) (disk : Disk) : SaveResult × Disk :=
  if io.stop = some .directories then (.stopped, disk)
  else if !io.opens then (.returned false, disk)
  else
    let disk := { disk with tmp := some [] }
    if io.stop = some .opened then (.stopped, disk)
    else match lib.dump (toJson doc) with
      | none => (.threw, disk)
      | some content =>
          let disk := { disk with tmp := some (io.write content) }
          if io.stop = some .written then (.stopped, disk) else atomicReplace io disk

/-- What `load` makes of the file, without the file it may create. -/
def loadedDocument (lib : JsonLib) (disk : Disk) : Option Document :=
  match disk.dest with
  | none => some defaultDocument
  | some content =>
      match lib.parse content with
      | .ok (.object members) => some (defaultDocument.insertMany members)
      -- `update` throws on any other value
      | _ => none

/-- The constructor: the document, or nothing where it throws or the process stops. -/
def load (lib : JsonLib) (io : SaveIo) (disk : Disk) : Option Document × Disk :=
  match disk.dest with
  | some _ => (loadedDocument lib disk, disk)
  | none =>
      match save lib io defaultDocument disk with
      | (.returned true, disk) => (some defaultDocument, disk)
      | (_, disk) => (none, disk)

/-! ## Operations on the document -/

def accountJson (acc : Account) : Json :=
  .object [(text "login", .string acc.login), (text "password", .string acc.password),
    (text "service", .string acc.service)]

def readAccount (j : Json) : Except JsonError Account := do
  let service ← j.value Json.getString (text "service") []
  let login ← j.value Json.getString (text "login") []
  let password ← j.value Json.getString (text "password") []
  pure ⟨service, login, password⟩

def sourceJson (src : CalendarSource) : Json :=
  .object [(text "enabled", .boolean src.enabled), (text "priority", .integer src.priority),
    (text "url", .string src.url)]

def readSource (j : Json) : Except JsonError CalendarSource := do
  let url ← j.value Json.getString (text "url") []
  let priority ← j.value Json.getInt (text "priority") 0
  let enabled ← j.value Json.getBool (text "enabled") true
  pure ⟨url, priority, enabled⟩

/-- The position of the first item whose `key` is `wanted`. -/
def findItem (key : String) (wanted : Text) : List Json → Except JsonError (Option Nat)
  | [] => pure none
  | item :: rest => do
      if (← item.value Json.getString (text key) []) = wanted then pure (some 0)
      else pure ((← findItem key wanted rest).map (· + 1))

/-- The loop of an upsert: the first item of that key is replaced, or a new one appended. -/
def upsertItem (key : String) (wanted : Text) (item list : Json) : Except JsonError Json := do
  match ← findItem key wanted list.children with
  | some i => pure (list.setChild i item)
  | none => list.pushBack item

/-- The loop of a removal; nothing where no item has that key. -/
def deleteItem (key : String) (wanted : Text) (list : Json) : Except JsonError (Option Json) := do
  pure ((← findItem key wanted list.children).map (fun i => list.eraseChild i))

def setMeta (key value : Text) : Json → Except JsonError Json
  | .null => pure (.object [(key, .string value)])
  | .object members => pure (.object (Json.setMember members key (.string value)))
  | _ => .error .typeError

def deleteMeta (key : Text) : Json → Except JsonError Json
  | .object members => pure (.object (Json.eraseMember members key))
  | _ => .error .typeError

/-- What an operation changes in the document; nothing where it does not save. -/
def change (doc : Document) : Operation → Except JsonError (Option Document)
  | .upsertAccount acc => do
      let list ← upsertItem "service" acc.service (accountJson acc) (part doc accountsKey)
      pure (some (doc.insert accountsKey list))
  | .deleteAccount service => do
      let list ← deleteItem "service" service (part doc accountsKey)
      pure (list.map (doc.insert accountsKey))
  | .upsertCalendarSource src => do
      let list ← upsertItem "url" src.url (sourceJson src) (part doc sourcesKey)
      pure (some (doc.insert sourcesKey list))
  | .removeCalendarSource url => do
      let list ← deleteItem "url" url (part doc sourcesKey)
      pure (list.map (doc.insert sourcesKey))
  | .setMeta key value => do
      let object ← setMeta key value (part doc metaKey)
      pure (some (doc.insert metaKey object))
  | .deleteMeta key => do
      let object ← deleteMeta key (part doc metaKey)
      pure (some (doc.insert metaKey object))
  | .clear => pure (some (((doc.insert accountsKey (.array [])).insert sourcesKey (.array [])).insert
      metaKey (.object [])))
  | .getAccount _ | .listAccounts | .listCalendarSources | .getMeta _ | .listMeta | .reopen => pure none

def getAccount (doc : Document) (service : Text) : Except JsonError (Option Account) := do
  match ← findItem "service" service (part doc accountsKey).children with
  | some i => pure (some (← readAccount (((part doc accountsKey).children[i]?).getD .null)))
  | none => pure none

def listAccounts (doc : Document) : Except JsonError (List Account) :=
  (part doc accountsKey).children.mapM readAccount

def listCalendarSources (doc : Document) : Except JsonError (List CalendarSource) := do
  pure (sortSources (← (part doc sourcesKey).children.mapM readSource))

def getMeta (doc : Document) (key : Text) : Except JsonError (Option Text) :=
  match part doc metaKey with
  | .object members =>
      match Json.member members key with
      | some v => do pure (some (← v.getString))
      | none => pure none
  | _ => pure none

/-- The keys that `items()` gives are those of an object, or the positions in an array. -/
def metaItems : Json → List (Text × Json)
  | .object members => members
  | .array items => items.zipIdx.map (fun item => (text (toString item.2), item.1))
  | .null => []
  | j => [([], j)]

def listMeta (doc : Document) : Except JsonError (List (Text × Text)) :=
  (metaItems (part doc metaKey)).mapM (fun row => do pure (row.1, ← row.2.getString))

def answer (doc : Document) : Operation → Except JsonError Answer
  | .getAccount service => do pure (.account (← getAccount doc service))
  | .listAccounts => do pure (.accounts (← listAccounts doc))
  | .listCalendarSources => do pure (.sources (← listCalendarSources doc))
  | .getMeta key => do pure (.metaValue (← getMeta doc key))
  | .listMeta => do pure (.metaRows (← listMeta doc))
  | _ => pure .done

end DivoomDev.Storage.JsonBackend
