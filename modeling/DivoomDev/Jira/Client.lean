import DivoomDev.Library.Fallible
import DivoomDev.Library.JsonValues

/-! The issues that the Jira client makes of a reply. The reply is const, and an index of a const
object is defined only where the object has the key. -/

namespace DivoomDev.Jira.Client
open DivoomDev.Library.Bytes DivoomDev.Library.JsonValues DivoomDev.Library.Fallible Json

structure Issue where
  key : Text
  link : Text
  summary : Text
  status : Text
  assignee : Text
  deriving DecidableEq, Repr

/-! ## Reading issues -/

/-- `j.contains(outer) && j[outer].contains(inner)`, and then the text `j[outer][inner]`. -/
def nestedString (j : Json) (outer inner : String) (default : Text) : Except Fault Text :=
  if j.contains (text outer) then do
    if (← constIndex j (text outer)).contains (text inner) then
      throwing (← constIndex (← constIndex j (text outer)) (text inner)).getString
    else pure default
  else pure default

/-- The body of the loop. -/
def readIssue (issueJson : Json) : Except Fault Issue := do
  let key ← throwing (issueJson.value getString (text "key") (text "N/A"))
  let link ← throwing (issueJson.value getString (text "self") (text "N/A"))
  let fields ← constIndex issueJson (text "fields")
  let summary ← throwing (fields.value getString (text "summary") (text "No Summary"))
  let status ← nestedString fields "status" "name" []
  let assignee ← nestedString fields "assignee" "emailAddress" (text "Unassigned")
  pure { key, link, summary, status, assignee }

/-- The loop; an exception leaves it with the issues so far. Nothing is said where the behaviour
is undefined. -/
def readIssues (issues : List Issue) : List Json → Option (List Issue)
  | [] => some issues
  | issueJson :: rest =>
      match readIssue issueJson with
      | .ok issue => readIssues (issues ++ [issue]) rest
      | .error (.thrown _) => some issues
      | .error .undefined => none

def parseSearchResults (jsonResponse : Json) : Option (List Issue) :=
  match constIndex jsonResponse (text "issues") with
  | .ok list => readIssues [] list.children
  | .error (.thrown _) => some []
  | .error .undefined => none

structure Config where
  baseUrl : Text
  email : Text
  apiToken : Text

/-- The request of a search; its other headers are fixed. -/
structure Request where
  url : Text
  params : List (Text × Text)
  authorization : Text
  deriving DecidableEq, Repr

def searchRequest (config : Config) (extraFilter orderBy : Text) : Request where
  url := config.baseUrl ++ text "/rest/api/latest/search"
  params :=
    [(text "jql", text "assignee=currentUser() AND Спринт in openSprints()" ++
        (if extraFilter ≠ [] then text " AND (" ++ extraFilter ++ text ")" else []) ++
        (if orderBy ≠ [] then text " ORDER BY " ++ orderBy else [])),
      (text "maxResults", text "50"), (text "fields", text "summary,status,assignee")]
  authorization := text "Bearer " ++ config.apiToken

/-- What `cpr::Get` returns. -/
structure Response where
  statusCode : Int
  text : Text

def getActiveUserIssues (lib : JsonLib) (response : Response) : Option (List Issue) :=
  if response.statusCode ≠ 200 then some []
  else if (find (text "You must log in") response.text).isSome then some []
  else
    match lib.parse response.text with
    | .ok jsonRoot => parseSearchResults jsonRoot
    | .error _ => some []

/-! ## Issues that can be read -/

/-- Not a member of another type. -/
def TextIfThere (j : Json) (key : String) : Prop := ∀ v, j.lookup (text key) = some v → ∃ s, v = .string s

/-- An object with a key and a link of the right type. -/
structure Named (issueJson : Json) : Prop where
  isObject : ∃ members, issueJson = .object members
  key : TextIfThere issueJson "key"
  link : TextIfThere issueJson "self"

/-- An object with a summary of the right type, whose status and assignee have a name and an
address of the right type where they have one. -/
structure GoodFields (fields : Json) : Prop where
  isObject : ∃ members, fields = .object members
  summary : TextIfThere fields "summary"
  status : ∀ v, fields.lookup (text "status") = some v → TextIfThere v "name"
  assignee : ∀ v, fields.lookup (text "assignee") = some v → TextIfThere v "emailAddress"

def Readable (issueJson : Json) : Prop :=
  Named issueJson ∧ ∃ fields, issueJson.lookup (text "fields") = some fields ∧ GoodFields fields

def LacksFields (issueJson : Json) : Prop := Named issueJson ∧ issueJson.lookup (text "fields") = none

/-! ## What reading one issue can do -/

/-- The computation returns where the condition holds and throws elsewhere; its behaviour is
always defined. -/
def Tests {α : Type} (x : Except Fault α) (condition : Prop) : Prop :=
  (condition ∧ Returns x) ∨ (¬condition ∧ ∃ e, x = .error (.thrown e))

theorem tests_pure {α : Type} (a : α) : Tests (pure a) True := .inl ⟨trivial, a, rfl⟩

theorem tests_bind {α β : Type} {x : Except Fault α} {next : α → Except Fault β} {first second : Prop}
    (tests : Tests x first) (later : first → ∀ a, Tests (next a) second) : Tests (x >>= next) (first ∧ second) := by
  rcases tests with ⟨holds, a, rfl⟩ | ⟨fails, e, rfl⟩
  · rcases later holds a with ⟨also, returns⟩ | ⟨fails, throws⟩
    · exact .inl ⟨⟨holds, also⟩, returns⟩
    · exact .inr ⟨fun both => fails both.2, throws⟩
  · exact .inr ⟨fun both => fails both.1, e, rfl⟩

theorem tests_congr {α : Type} {x : Except Fault α} {condition condition' : Prop} (tests : Tests x condition)
    (same : condition ↔ condition') : Tests x condition' := by
  rw [← same]
  exact tests

theorem tests_getString (v : Json) : Tests (throwing v.getString) (∃ s, v = .string s) := by
  cases v with
  | string s => exact .inl ⟨⟨s, rfl⟩, s, rfl⟩
  | _ => exact .inr ⟨by simp, .typeError, rfl⟩

theorem tests_value (j : Json) (key : String) (default : Text) :
    Tests (throwing (j.value getString (text key) default))
      ((∃ members, j = .object members) ∧ TextIfThere j key) := by
  cases j with
  | object members =>
    unfold TextIfThere
    simp only [value, lookup]
    cases member members (text key) with
    | none => exact .inl ⟨⟨⟨members, rfl⟩, by simp⟩, default, rfl⟩
    | some v => exact tests_congr (tests_getString v) (by simp)
  | _ => exact .inr ⟨by simp, .typeError, rfl⟩

/-- Each index of the nested text is behind the check that the key is there. -/
theorem tests_nestedString (j : Json) (outer inner : String) (default : Text) :
    Tests (nestedString j outer inner default)
      (∀ v, j.lookup (text outer) = some v → TextIfThere v inner) := by
  unfold nestedString TextIfThere contains
  cases there : j.lookup (text outer) with
  | none => exact .inl ⟨by simp, default, rfl⟩
  | some v =>
    simp only [Option.isSome_some, if_true, constIndex_of_lookup there, bind, Except.bind]
    cases also : v.lookup (text inner) with
    | none => exact .inl ⟨by simp [also], default, rfl⟩
    | some w =>
      simp only [Option.isSome_some, if_true, constIndex_of_lookup also]
      exact tests_congr (tests_getString w) (by simp [also])

theorem tests_fields (fields : Json) (key link : Text) :
    Tests (do
      let summary ← throwing (fields.value getString (text "summary") (text "No Summary"))
      let status ← nestedString fields "status" "name" []
      let assignee ← nestedString fields "assignee" "emailAddress" (text "Unassigned")
      pure (Issue.mk key link summary status assignee)) (GoodFields fields) := by
  have parts := tests_bind (tests_value fields "summary" (text "No Summary")) (fun _ summary =>
    tests_bind (tests_nestedString fields "status" "name" []) (fun _ status =>
      tests_bind (tests_nestedString fields "assignee" "emailAddress" (text "Unassigned")) (fun _ assignee =>
        tests_pure (Issue.mk key link summary status assignee))))
  refine tests_congr parts ⟨fun given => ?_, fun good => ?_⟩
  · exact ⟨given.1.1, given.1.2, given.2.1, given.2.2.1⟩
  · exact ⟨⟨good.isObject, good.summary⟩, good.status, good.assignee, trivial⟩

/-- An issue is read, or lacks its fields behind a key and a link that are read, or throws. -/
theorem readIssue_cases (issueJson : Json) :
    (Readable issueJson ∧ ∃ issue, readIssue issueJson = .ok issue) ∨
      (LacksFields issueJson ∧ readIssue issueJson = .error .undefined) ∨
      (¬Readable issueJson ∧ ¬LacksFields issueJson ∧ ∃ e, readIssue issueJson = .error (.thrown e)) := by
  have unnamed (fails : ¬Named issueJson) : ¬Readable issueJson ∧ ¬LacksFields issueJson :=
    ⟨fun readable => fails readable.1, fun lacks => fails lacks.1⟩
  unfold readIssue
  rcases tests_value issueJson "key" (text "N/A") with ⟨⟨isObject, keyed⟩, key, readKey⟩ | ⟨fails, e, throws⟩
  swap
  · obtain ⟨unreadable, other⟩ := unnamed (fun named => fails ⟨named.isObject, named.key⟩)
    rw [throws]
    exact .inr (.inr ⟨unreadable, other, e, rfl⟩)
  rcases tests_value issueJson "self" (text "N/A") with ⟨⟨_, linked⟩, link, readLink⟩ | ⟨fails, e, throws⟩
  swap
  · obtain ⟨unreadable, other⟩ := unnamed (fun named => fails ⟨named.isObject, named.link⟩)
    rw [readKey, throws]
    exact .inr (.inr ⟨unreadable, other, e, rfl⟩)
  have named : Named issueJson := ⟨isObject, keyed, linked⟩
  obtain ⟨members, rfl⟩ := isObject
  rw [readKey, readLink]
  cases there : (object members).lookup (text "fields") with
  | none =>
    refine .inr (.inl ⟨⟨named, there⟩, ?_⟩)
    simp only [constIndex_undefined there, bind, Except.bind]
  | some fields =>
    have hasFields : ¬LacksFields (object members) := fun lacks => nomatch there.symm.trans lacks.2
    have good : Readable (object members) ↔ GoodFields fields := by
      constructor
      · rintro ⟨_, other, same, good⟩
        exact Option.some.inj (same.symm.trans there) ▸ good
      · exact fun good => ⟨named, fields, there, good⟩
    rw [constIndex_of_lookup there, good]
    exact (tests_fields fields key link).imp_right (fun given => .inr ⟨given.1, hasFields, given.2⟩)

/-! ## The loop -/

/-- Behind issues that can be read stands one without fields. -/
def ReachesMissing (items : List Json) : Prop :=
  ∃ front item rest, items = front ++ item :: rest ∧ (∀ earlier ∈ front, Readable earlier) ∧ LacksFields item

theorem reachesMissing_cons (item : Json) (rest : List Json) :
    ReachesMissing (item :: rest) ↔ LacksFields item ∨ (Readable item ∧ ReachesMissing rest) := by
  constructor
  · rintro ⟨front, missing, behind, same, readable, lacks⟩
    cases front with
    | nil =>
      obtain ⟨rfl, rfl⟩ := List.cons_eq_cons.mp same
      exact .inl lacks
    | cons first front =>
      obtain ⟨rfl, rfl⟩ := List.cons_eq_cons.mp same
      obtain ⟨here, others⟩ := List.forall_mem_cons.mp readable
      exact .inr ⟨here, front, missing, behind, rfl, others, lacks⟩
  · rintro (lacks | ⟨here, front, missing, behind, rfl, readable, lacks⟩)
    · exact ⟨[], item, rest, rfl, List.forall_mem_nil _, lacks⟩
    · exact ⟨item :: front, missing, behind, rfl, List.forall_mem_cons.mpr ⟨here, readable⟩, lacks⟩

theorem readIssues_eq_none (issues : List Issue) (items : List Json) :
    readIssues issues items = none ↔ ReachesMissing items := by
  induction items generalizing issues with
  | nil => simp [readIssues, ReachesMissing]
  | cons item rest ih =>
    rw [reachesMissing_cons]
    rcases readIssue_cases item with ⟨readable, issue, read⟩ | ⟨lacks, undefined⟩ | ⟨unreadable, other, e, throws⟩
    · have hasFields : ¬LacksFields item := by
        rintro ⟨_, missing⟩
        obtain ⟨_, fields, there, _⟩ := readable
        exact nomatch there.symm.trans missing
      simp only [readIssues, read, ih, hasFields, readable, false_or, true_and]
    · simp [readIssues, undefined, lacks]
    · simp [readIssues, throws, unreadable, other]

/-- The element is read as the issue. -/
def ReadAs (item : Json) (issue : Issue) : Prop := readIssue item = .ok issue

/-- The issues that are added are those of the elements up to the first that is not read. -/
theorem readIssues_prefix {issues result : List Issue} {items : List Json}
    (returned : readIssues issues items = some result) :
    ∃ front added, front <+: items ∧ result = issues ++ added ∧ List.Forall₂ ReadAs front added := by
  induction items generalizing issues with
  | nil =>
    cases returned
    exact ⟨[], [], List.nil_prefix, (List.append_nil _).symm, .nil⟩
  | cons item rest ih =>
    rw [readIssues] at returned
    cases read : readIssue item with
    | ok issue =>
      simp only [read] at returned
      obtain ⟨front, added, isPrefix, rfl, each⟩ := ih returned
      exact ⟨item :: front, issue :: added, List.prefix_cons_inj item |>.mpr isPrefix,
        List.append_assoc _ _ _, .cons read each⟩
    | error fault =>
      cases fault with
      | undefined => simp [read] at returned
      | thrown e =>
        simp only [read] at returned
        cases returned
        exact ⟨[], [], List.nil_prefix, (List.append_nil _).symm, .nil⟩

/-! ## The whole reply -/

/-- The reply is an object without issues, or its issues lead to one without fields. -/
def MissesKey (jsonResponse : Json) : Prop :=
  (∃ members, jsonResponse = .object members ∧ jsonResponse.lookup (text "issues") = none) ∨
    ∃ list, jsonResponse.lookup (text "issues") = some list ∧ ReachesMissing list.children

theorem parseSearchResults_eq_none (jsonResponse : Json) :
    parseSearchResults jsonResponse = none ↔ MissesKey jsonResponse := by
  unfold parseSearchResults MissesKey
  cases jsonResponse with
  | object members =>
    cases there : (object members).lookup (text "issues") with
    | none => simp [constIndex_undefined there]
    | some list => simp [constIndex_of_lookup there, readIssues_eq_none]
  | _ => simp [constIndex, lookup]

/-- A call has undefined behaviour only on a reply with status 200 whose JSON misses a key. -/
theorem getActiveUserIssues_eq_none (lib : JsonLib) (response : Response) :
    getActiveUserIssues lib response = none ↔
      response.statusCode = 200 ∧ find (text "You must log in") response.text = none ∧
        ∃ jsonRoot, lib.parse response.text = .ok jsonRoot ∧ MissesKey jsonRoot := by
  unfold getActiveUserIssues
  by_cases status : response.statusCode = 200
  · cases find (text "You must log in") response.text with
    | some pos => simp [status]
    | none => cases lib.parse response.text <;> simp [status, parseSearchResults_eq_none]
  · simp [status]

/-- The elements of the issues array, if there is such an array. -/
def issuesArray (jsonResponse : Json) : List Json :=
  match jsonResponse.lookup (text "issues") with
  | some (.array items) => items
  | _ => []

/-- No index misses its key, and the issues are those of a prefix of the array, one of each
element and in order. -/
def ReadsPrefix (jsonResponse : Json) : Prop :=
  ∃ issues, parseSearchResults jsonResponse = some issues ∧
    ∃ front, front <+: issuesArray jsonResponse ∧ List.Forall₂ ReadAs front issues

/-- Where there is no array, nothing is to be returned. -/
theorem readsPrefix_of_noArray {jsonResponse : Json} (noArray : issuesArray jsonResponse = []) :
    ReadsPrefix jsonResponse ↔ parseSearchResults jsonResponse = some [] := by
  unfold ReadsPrefix
  rw [noArray]
  constructor
  · rintro ⟨issues, returned, front, isPrefix, each⟩
    obtain rfl := List.prefix_nil.mp isPrefix
    cases each
    exact returned
  · exact fun returned => ⟨[], returned, [], List.nil_prefix, .nil⟩

/-- A first issue that is read is returned. -/
theorem readIssues_eq_nil (item : Json) (rest : List Json) :
    readIssues [] (item :: rest) = some [] ↔ ¬LacksFields item ∧ ¬Readable item := by
  rcases readIssue_cases item with ⟨readable, issue, read⟩ | ⟨lacks, undefined⟩ | ⟨unreadable, other, e, throws⟩
  · have kept : readIssues [issue] rest ≠ some [] := by
      intro returned
      obtain ⟨_, _, _, same, _⟩ := readIssues_prefix returned
      cases same
    simp [readIssues, read, readable, kept]
  · simp [readIssues, undefined, lacks]
  · simp [readIssues, throws, unreadable, other]

theorem readIssues_alone {j : Json} (other : ∀ members, j ≠ .object members) :
    readIssues [] [j] = some [] ∧ ¬ReachesMissing [j] := by
  have unnamed : ¬Named j := fun named => named.isObject.elim other
  have unreadable : ¬Readable j := fun readable => unnamed readable.1
  have hasFields : ¬LacksFields j := fun lacks => unnamed lacks.1
  refine ⟨(readIssues_eq_nil j []).mpr ⟨hasFields, unreadable⟩, ?_⟩
  rw [reachesMissing_cons]
  exact not_or_intro hasFields (fun given => unreadable given.1)

/-- In the place of the array stands an object, or a value that the loop visits itself. -/
theorem readIssues_children_eq_nil {list : Json} (noArray : ∀ items, list ≠ .array items) :
    readIssues [] list.children = some [] ↔
      ¬ReachesMissing list.children ∧ ∀ m rest, list = .object (m :: rest) → ¬Readable m.2 := by
  cases list with
  | array items => exact absurd rfl (noArray items)
  | null => simp [children, readIssues, ReachesMissing]
  | object members =>
    cases members with
    | nil => simp [children, readIssues, ReachesMissing]
    | cons m rest =>
      rw [children, List.map_cons, readIssues_eq_nil, reachesMissing_cons]
      constructor
      · rintro ⟨hasFields, unreadable⟩
        refine ⟨not_or_intro hasFields (fun given => unreadable given.1), fun m' rest' same => ?_⟩
        cases same
        exact unreadable
      · rintro ⟨safe, unreadable⟩
        exact ⟨fun lacks => safe (.inl lacks), unreadable m rest rfl⟩
  | _ => exact iff_of_true (readIssues_alone (by simp)).1 ⟨(readIssues_alone (by simp)).2, by simp⟩

/-- The issues of a prefix are returned exactly where no key is missed and an object in the place
of the array does not begin with an issue that can be read. -/
theorem parseSearchResults_readsPrefix_iff (jsonResponse : Json) :
    ReadsPrefix jsonResponse ↔ ¬MissesKey jsonResponse ∧
      ∀ m rest, jsonResponse.lookup (text "issues") = some (.object (m :: rest)) → ¬Readable m.2 := by
  cases there : jsonResponse.lookup (text "issues") with
  | none =>
    have noArray : issuesArray jsonResponse = [] := by simp [issuesArray, there]
    rw [readsPrefix_of_noArray noArray, ← parseSearchResults_eq_none, parseSearchResults]
    cases jsonResponse with
    | object members => simp [constIndex_undefined there]
    | _ => simp [constIndex]
  | some list =>
    have parsed : parseSearchResults jsonResponse = readIssues [] list.children := by
      rw [parseSearchResults, constIndex_of_lookup there]
    have missed : MissesKey jsonResponse ↔ ReachesMissing list.children := by
      rw [← parseSearchResults_eq_none, parsed, readIssues_eq_none]
    rw [missed]
    cases list with
    | array items =>
      have array : issuesArray jsonResponse = items := by simp [issuesArray, there]
      constructor
      · rintro ⟨issues, returned, _⟩
        refine ⟨fun missing => ?_, by simp⟩
        rw [parsed, (readIssues_eq_none [] _).mpr missing] at returned
        cases returned
      · rintro ⟨safe, _⟩
        cases returned : readIssues [] items with
        | none => exact absurd ((readIssues_eq_none [] items).mp returned) safe
        | some issues =>
          obtain ⟨front, added, isPrefix, same, each⟩ := readIssues_prefix returned
          rw [List.nil_append] at same
          exact ⟨issues, parsed.trans returned, front, array ▸ isPrefix, same ▸ each⟩
    | _ =>
      have noArray : issuesArray jsonResponse = [] := by simp [issuesArray, there]
      rw [readsPrefix_of_noArray noArray, parsed, readIssues_children_eq_nil (by simp)]
      simp only [Option.some.injEq]

/-- The empty object has no issues. -/
theorem empty_object_undefined : ¬∀ jsonResponse, ReadsPrefix jsonResponse := by
  intro always
  obtain ⟨issues, returned, _⟩ := always (.object [])
  cases returned

example : parseSearchResults (.object [(text "issues", .array [.object
      [(text "fields", .object [(text "assignee", .null),
        (text "status", .object [(text "name", .string (text "To Do"))])]),
      (text "key", .string (text "A-1"))], .integer 1])]) =
    some [⟨text "A-1", text "N/A", text "No Summary", text "To Do", text "Unassigned"⟩] := by decide +kernel

end DivoomDev.Jira.Client
