import DivoomDev.Library.Bytes
import DivoomDev.Library.KeyedList

/-! JSON values and the part of a JSON library that reads and changes them. Objects hold
their members in the order of the keys, bytewise. A wrong type is an error value. -/

namespace DivoomDev.Library.JsonValues
open DivoomDev.Library.Bytes KeyedList

/-- A number with a fraction or an exponent is kept as its decimal. -/
inductive Json where
  | null
  | boolean (b : Bool)
  | integer (n : Int)
  | float (mantissa exponent : Int)
  | string (s : Text)
  | array (items : List Json)
  | object (members : List (Text × Json))
  deriving Repr

/-- The exceptions of the library: text that is no JSON, a value of another type, and a key
that is not there or a number that does not fit. -/
inductive JsonError where
  | parseError
  | typeError
  | outOfRange
  deriving DecidableEq, Repr

namespace Json

/-! ## Equality -/

mutual

def decEq : (a b : Json) → Decidable (a = b)
  | .null, .null => isTrue rfl
  | .boolean a, .boolean b => decidable_of_iff (a = b) (by simp)
  | .integer a, .integer b => decidable_of_iff (a = b) (by simp)
  | .float a x, .float b y => decidable_of_iff (a = b ∧ x = y) (by simp)
  | .string a, .string b => decidable_of_iff (a = b) (by simp)
  | .array a, .array b => @decidable_of_iff _ (a = b) (by simp) (decEqItems a b)
  | .object a, .object b => @decidable_of_iff _ (a = b) (by simp) (decEqMembers a b)
  | .null, .boolean _ | .null, .integer _ | .null, .float _ _ | .null, .string _
  | .null, .array _ | .null, .object _ | .boolean _, .null | .boolean _, .integer _
  | .boolean _, .float _ _ | .boolean _, .string _ | .boolean _, .array _
  | .boolean _, .object _ | .integer _, .null | .integer _, .boolean _
  | .integer _, .float _ _ | .integer _, .string _ | .integer _, .array _
  | .integer _, .object _ | .float _ _, .null | .float _ _, .boolean _
  | .float _ _, .integer _ | .float _ _, .string _ | .float _ _, .array _
  | .float _ _, .object _ | .string _, .null | .string _, .boolean _ | .string _, .integer _
  | .string _, .float _ _ | .string _, .array _ | .string _, .object _ | .array _, .null
  | .array _, .boolean _ | .array _, .integer _ | .array _, .float _ _ | .array _, .string _
  | .array _, .object _ | .object _, .null | .object _, .boolean _ | .object _, .integer _
  | .object _, .float _ _ | .object _, .string _ | .object _, .array _ => isFalse (by simp)

def decEqItems : (a b : List Json) → Decidable (a = b)
  | [], [] => isTrue rfl
  | [], _ :: _ | _ :: _, [] => isFalse (by simp)
  | a :: as, b :: bs =>
      match decEq a b, decEqItems as bs with
      | isTrue same, isTrue rest => isTrue (by rw [same, rest])
      | isFalse other, _ => isFalse (by simp [other])
      | _, isFalse other => isFalse (by simp [other])

def decEqMembers : (a b : List (Text × Json)) → Decidable (a = b)
  | [], [] => isTrue rfl
  | [], _ :: _ | _ :: _, [] => isFalse (by simp)
  | (k, a) :: as, (l, b) :: bs =>
      match decEq a b, decEqMembers as bs with
      | isTrue same, isTrue rest => decidable_of_iff (k = l) (by simp [same, rest])
      | isFalse other, _ => isFalse (by simp [other])
      | _, isFalse other => isFalse (by simp [other])

end

instance : DecidableEq Json := decEq

inductive EachText (property : Text → Prop) : Json → Prop where
  | null : EachText property .null
  | boolean (b : Bool) : EachText property (.boolean b)
  | integer (n : Int) : EachText property (.integer n)
  | float (mantissa exponent : Int) : EachText property (.float mantissa exponent)
  | string {s : Text} (holds : property s) : EachText property (.string s)
  | array {items : List Json} (each : ∀ item ∈ items, EachText property item) :
      EachText property (.array items)
  | object {members : List (Text × Json)} (keys : ∀ m ∈ members, property m.1)
      (values : ∀ m ∈ members, EachText property m.2) : EachText property (.object members)

section EachText
variable {property : Text → Prop}

theorem eachText_integer (n : Int) : EachText property (.integer n) ↔ True := iff_true_intro (.integer n)

theorem eachText_string (s : Text) : EachText property (.string s) ↔ property s :=
  ⟨fun | .string holds => holds, .string⟩

theorem eachText_array (items : List Json) :
    EachText property (.array items) ↔ ∀ item ∈ items, EachText property item :=
  ⟨fun | .array each => each, .array⟩

theorem eachText_object (members : List (Text × Json)) :
    EachText property (.object members) ↔ ∀ m ∈ members, property m.1 ∧ EachText property m.2 :=
  ⟨fun | .object keys values => fun m inside => ⟨keys m inside, values m inside⟩,
    fun both => .object (fun m inside => (both m inside).1) (fun m inside => (both m inside).2)⟩

variable [DecidablePred property]

mutual

def decEachText : (j : Json) → Decidable (EachText property j)
  | .null => .isTrue .null
  | .boolean b => .isTrue (.boolean b)
  | .integer n => .isTrue (.integer n)
  | .float mantissa exponent => .isTrue (.float mantissa exponent)
  | .string s => decidable_of_iff _ (eachText_string s).symm
  | .array items => @decidable_of_iff _ _ (eachText_array items).symm (decEachItem items)
  | .object members => @decidable_of_iff _ _ (eachText_object members).symm (decEachMember members)

def decEachItem : (items : List Json) → Decidable (∀ item ∈ items, EachText property item)
  | [] => .isTrue (List.forall_mem_nil _)
  | item :: rest => @decidable_of_iff _ (EachText property item ∧ ∀ item ∈ rest, EachText property item)
      List.forall_mem_cons.symm (@instDecidableAnd _ _ (decEachText item) (decEachItem rest))

def decEachMember :
    (members : List (Text × Json)) → Decidable (∀ m ∈ members, property m.1 ∧ EachText property m.2)
  | [] => .isTrue (List.forall_mem_nil _)
  | (key, v) :: rest =>
      @decidable_of_iff _ ((property key ∧ EachText property v) ∧
          ∀ m ∈ rest, property m.1 ∧ EachText property m.2) (by rw [List.forall_mem_cons])
        (@instDecidableAnd _ _ (@instDecidableAnd _ _ inferInstance (decEachText v)) (decEachMember rest))

end

instance : DecidablePred (EachText property) := decEachText

end EachText

/-! ## Reading -/

/-- `j.find(key)` on the members of an object. -/
def member (members : List (Text × Json)) (key : Text) : Option Json :=
  (members.find? (fun m => m.1 = key)).map Prod.snd

def getString : Json → Except JsonError Text
  | .string s => pure s
  | _ => .error .typeError

def getBool : Json → Except JsonError Bool
  | .boolean b => pure b
  | _ => .error .typeError

/-- The `int` with the same remainder modulo 2^32. -/
def wrapInt (n : Int) : Int := (n + 2147483648) % 4294967296 - 2147483648

theorem wrapInt_range (n : Int) : intMin ≤ wrapInt n ∧ wrapInt n ≤ intMax := by
  simp only [wrapInt, intMin, intMax]
  omega

theorem wrapInt_eq {n : Int} (range : intMin ≤ n ∧ n ≤ intMax) : wrapInt n = n := by
  simp only [wrapInt, intMin, intMax] at *
  omega

def wholePart (mantissa exponent : Int) : Int :=
  if 0 ≤ exponent then mantissa * 10 ^ exponent.toNat else mantissa.tdiv (10 ^ (-exponent).toNat)

/-- `get<int>()`, which takes booleans and fractions as well. -/
def getInt : Json → Except JsonError Int
  | .boolean b => pure (if b then 1 else 0)
  | .integer n => pure (wrapInt n)
  | .float mantissa exponent => pure (wrapInt (wholePart mantissa exponent))
  | _ => .error .typeError

/-- `j.at(key)`. -/
def field (j : Json) (key : Text) : Except JsonError Json :=
  match j with
  | .object members =>
      match member members key with
      | some v => pure v
      | none => .error .outOfRange
  | _ => .error .typeError

/-- `j.value(key, default)` with the conversion of the default's type. -/
def value {α : Type} (get : Json → Except JsonError α) (j : Json) (key : Text) (default : α) :
    Except JsonError α :=
  match j with
  | .object members =>
      match member members key with
      | some v => get v
      | none => pure default
  | _ => .error .typeError

/-- `get<unsigned long long>()`, which takes fractions but no booleans. -/
def getUint64 : Json → Except JsonError UInt64
  | .integer n => pure (UInt64.ofInt n)
  | .float mantissa exponent => pure (UInt64.ofInt (wholePart mantissa exponent))
  | _ => .error .typeError

/-- The member that `j.contains(key)` looks for; only an object has members. -/
def lookup (j : Json) (key : Text) : Option Json :=
  match j with
  | .object members => member members key
  | _ => none

def contains (j : Json) (key : Text) : Bool := (j.lookup key).isSome

/-- `j[key]` of a value that may change: null becomes an object, and a key that is not there
gets null. -/
def index (j : Json) (key : Text) : Except JsonError Json :=
  match j with
  | .null => pure .null
  | .object members => pure ((member members key).getD .null)
  | _ => .error .typeError

/-- How the use of a const value ends early: the library throws, or what happens is undefined. -/
inductive Fault where
  | thrown (e : JsonError)
  | undefined
  deriving DecidableEq, Repr

/-- An exception of the library among these. -/
def throwing {α : Type} (x : Except JsonError α) : Except Fault α := x.mapError .thrown

/-- `j[key]` of a const value, which expects that an object has the key. -/
def constIndex (j : Json) (key : Text) : Except Fault Json :=
  match j with
  | .object members =>
      match member members key with
      | some v => pure v
      | none => .error .undefined
  | _ => .error (.thrown .typeError)

theorem constIndex_of_lookup {j v : Json} {key : Text} (there : j.lookup key = some v) :
    constIndex j key = .ok v := by
  cases j with
  | object members =>
    rw [lookup] at there
    rw [constIndex, there]
    rfl
  | _ => cases there

theorem constIndex_undefined {members : List (Text × Json)} {key : Text}
    (missing : (object members).lookup key = none) : constIndex (object members) key = .error .undefined := by
  rw [lookup] at missing
  rw [constIndex, missing]

/-! ## Changing -/

/-- `members[key] = v`. -/
def setMember (members : List (Text × Json)) (key : Text) (v : Json) : List (Text × Json) :=
  match members with
  | [] => [(key, v)]
  | m :: rest =>
      match compare key m.1 with
      | .lt => (key, v) :: m :: rest
      | .eq => (key, v) :: rest
      | .gt => m :: setMember rest key v

def eraseMember (members : List (Text × Json)) (key : Text) : List (Text × Json) :=
  members.filter (fun m => m.1 ≠ key)

/-- What a range-based `for` visits: the items of an array or the values of an object; any
other value but null is visited itself. -/
def children : Json → List Json
  | .null => []
  | .array items => items
  | .object members => members.map Prod.snd
  | j => [j]

/-- The value that such a loop is at, replaced. -/
def setChild (j : Json) (i : Nat) (v : Json) : Json :=
  match j with
  | .null => .null
  | .array items => .array (items.set i v)
  | .object members => .object (members.modify i (fun m => (m.1, v)))
  | j => if i = 0 then v else j

/-- The value that such a loop is at, erased; a value that is visited itself becomes null. -/
def eraseChild (j : Json) (i : Nat) : Json :=
  match j with
  | .null => .null
  | .array items => .array (items.eraseIdx i)
  | .object members => .object (members.eraseIdx i)
  | j => if i = 0 then .null else j

/-- `j.push_back(v)`, which makes null an array. -/
def pushBack (j v : Json) : Except JsonError Json :=
  match j with
  | .null => pure (.array [v])
  | .array items => pure (.array (items ++ [v]))
  | _ => .error .typeError

/-! ## Objects with sorted keys -/

/-- The members of an object stand in the strict order of their keys. -/
def KeySorted {α : Type} (members : List (Text × α)) : Prop :=
  members.Pairwise (fun a b => compare a.1 b.1 = .lt)

theorem KeySorted.ext {α : Type} {a b : List (Text × α)} (sortedA : KeySorted a) (sortedB : KeySorted b)
    (same : ∀ m, m ∈ a ↔ m ∈ b) : a = b := by
  have : Std.Irrefl (fun a b : Text × α => compare a.1 b.1 = .lt) :=
    ⟨fun m below => by simp [Std.ReflCmp.compare_self] at below⟩
  have : Std.Antisymm (fun a b : Text × α => compare a.1 b.1 = .lt) :=
    ⟨fun m n below above => by simp [Std.OrientedCmp.gt_of_lt below] at above⟩
  exact sortedA.eq_of_mem_iff sortedB same

theorem KeySorted.distinct {α : Type} {members : List (Text × α)} (sorted : KeySorted members) :
    (members.map Prod.fst).Nodup :=
  List.pairwise_map.mpr (sorted.imp (fun below same => by
    rw [same] at below
    simp [Std.ReflCmp.compare_self] at below))

theorem member_eq_some {members : List (Text × Json)} (sorted : KeySorted members) (key : Text) (v : Json) :
    member members key = some v ↔ (key, v) ∈ members := by
  rw [member, Option.map_eq_some_iff]
  apply Iff.intro
  · intro given
    obtain ⟨m, found, rfl⟩ := given
    obtain ⟨inside, rfl⟩ := (find?_eq_some sorted.distinct m).mp found
    exact inside
  · exact fun inside => ⟨(key, v), (find?_eq_some sorted.distinct _).mpr ⟨inside, rfl⟩, rfl⟩

theorem mem_of_mem_setMember {members : List (Text × Json)} {key : Text} {v : Json} {m : Text × Json}
    (inside : m ∈ setMember members key v) : m = (key, v) ∨ m ∈ members := by
  induction members with
  | nil => exact .inl (List.mem_singleton.mp inside)
  | cons head rest ih =>
    unfold setMember at inside
    split at inside
    · exact List.mem_cons.mp inside
    · exact (List.mem_cons.mp inside).imp_right (List.mem_cons_of_mem head)
    · rcases List.mem_cons.mp inside with rfl | inRest
      · exact .inr List.mem_cons_self
      · exact (ih inRest).imp_right (List.mem_cons_of_mem head)

theorem mem_setMember {members : List (Text × Json)} (sorted : KeySorted members) (key : Text) (v : Json)
    (m : Text × Json) :
    m ∈ setMember members key v ↔ m = (key, v) ∨ (m ∈ members ∧ m.1 ≠ key) := by
  induction members with
  | nil => simp [setMember]
  | cons head rest ih =>
    obtain ⟨first, later⟩ := List.pairwise_cons.mp sorted
    unfold setMember
    split
    · next below =>
      have others : m ∈ head :: rest → m.1 ≠ key := by
        intro inside same
        rcases List.mem_cons.mp inside with rfl | inRest
        · simp [same, Std.ReflCmp.compare_self] at below
        · have above := Std.TransCmp.lt_trans below (first m inRest)
          simp [same, Std.ReflCmp.compare_self] at above
      rw [List.mem_cons]
      exact or_congr_right (and_iff_left_of_imp others).symm
    · next same =>
      have equal : key = head.1 := Std.LawfulEqCmp.eq_of_compare same
      have others : m ∈ rest → m.1 ≠ key := by
        intro inRest clash
        have below := first m inRest
        simp [clash, equal, Std.ReflCmp.compare_self] at below
      have replaced : m = head → m.1 = key := fun isHead => isHead ▸ equal.symm
      rw [List.mem_cons, List.mem_cons]
      tauto
    · next above =>
      have differs : head.1 ≠ key := fun same => by simp [same, Std.ReflCmp.compare_self] at above
      have kept : m = head → m.1 ≠ key := fun isHead => isHead ▸ differs
      rw [List.mem_cons, List.mem_cons, ih later]
      tauto

theorem setMember_sorted {members : List (Text × Json)} (sorted : KeySorted members) (key : Text)
    (v : Json) : KeySorted (setMember members key v) := by
  induction members with
  | nil => exact List.pairwise_singleton _ _
  | cons head rest ih =>
    obtain ⟨first, later⟩ := List.pairwise_cons.mp sorted
    unfold setMember
    split
    · next below =>
      refine List.pairwise_cons.mpr ⟨fun other inside => ?_, sorted⟩
      rcases List.mem_cons.mp inside with rfl | inRest
      · exact below
      · exact Std.TransCmp.lt_trans below (first other inRest)
    · next same =>
      have equal : key = head.1 := Std.LawfulEqCmp.eq_of_compare same
      exact List.pairwise_cons.mpr ⟨fun other inside => equal ▸ first other inside, later⟩
    · next above =>
      refine List.pairwise_cons.mpr ⟨fun other inside => ?_, ih later⟩
      rcases (mem_setMember later key v other).mp inside with rfl | ⟨inRest, _⟩
      · exact Std.OrientedCmp.lt_of_gt above
      · exact first other inRest

theorem eraseMember_sorted {members : List (Text × Json)} (sorted : KeySorted members) (key : Text) :
    KeySorted (eraseMember members key) := sorted.filter _

theorem mem_eraseMember (members : List (Text × Json)) (key : Text) (m : Text × Json) :
    m ∈ eraseMember members key ↔ m ∈ members ∧ m.1 ≠ key := by
  simp [eraseMember]

theorem member_cons (m : Text × Json) (rest : List (Text × Json)) (key : Text) :
    member (m :: rest) key = if m.1 = key then some m.2 else member rest key := by
  by_cases here : m.1 = key <;> simp [member, here]

theorem member_setMember (members : List (Text × Json)) (key other : Text) (v : Json) :
    member (setMember members key v) other = if key = other then some v else member members other := by
  induction members with
  | nil => rw [setMember, member_cons]
  | cons m rest ih =>
    unfold setMember
    split
    · rw [member_cons]
    · next same =>
      have equal : key = m.1 := Std.LawfulEqCmp.eq_of_compare same
      rw [member_cons, member_cons, ← equal]
      split_ifs <;> rfl
    · next above =>
      have differs : key ≠ m.1 := fun same => by simp [same, Std.ReflCmp.compare_self] at above
      rw [member_cons, member_cons, ih]
      split_ifs with here both
      · exact absurd (both.trans here.symm) differs
      · rfl
      · rfl
      · rfl

/-- What is set last stays. -/
theorem setMember_setMember (members : List (Text × Json)) (key : Text) (v w : Json) :
    setMember (setMember members key v) key w = setMember members key w := by
  induction members with
  | nil => simp [setMember, Std.ReflCmp.compare_self]
  | cons m rest ih =>
    cases order : compare key m.1 with
    | lt => simp [setMember, order, Std.ReflCmp.compare_self]
    | eq => simp [setMember, order, Std.ReflCmp.compare_self]
    | gt => simp [setMember, order, ih]

/-! ## Texts of changed values -/

section Changed
variable {property : Text → Prop} {j v : Json}

theorem eachText_setChild (valid : EachText property j) (validChild : EachText property v) (i : Nat) :
    EachText property (j.setChild i v) := by
  cases j with
  | null => exact valid
  | array items =>
    rw [eachText_array] at valid
    refine .array (fun item inside => ?_)
    rcases List.mem_or_eq_of_mem_set inside with kept | rfl
    · exact valid item kept
    · exact validChild
  | object members =>
    rw [eachText_object] at valid
    refine (eachText_object _).mpr (fun m inside => ?_)
    obtain ⟨position, bound, rfl⟩ := List.mem_iff_getElem.mp inside
    rw [List.length_modify] at bound
    have here := valid _ (List.getElem_mem bound)
    rw [List.getElem_modify]
    split_ifs
    · exact ⟨here.1, validChild⟩
    · exact here
  | _ =>
    unfold setChild
    split_ifs
    · exact validChild
    · exact valid

theorem eachText_eraseChild (valid : EachText property j) (i : Nat) : EachText property (j.eraseChild i) := by
  cases j with
  | null => exact valid
  | array items =>
    rw [eachText_array] at valid
    exact .array (fun item inside => valid item (List.mem_of_mem_eraseIdx inside))
  | object members =>
    rw [eachText_object] at valid
    exact (eachText_object _).mpr (fun m inside => valid m (List.mem_of_mem_eraseIdx inside))
  | _ =>
    unfold eraseChild
    split_ifs
    · exact .null
    · exact valid

theorem eachText_pushBack (valid : EachText property j) (validItem : EachText property v) {changed : Json}
    (pushed : j.pushBack v = .ok changed) : EachText property changed := by
  cases valid with
  | null =>
    cases pushed
    exact .array (by simpa using validItem)
  | array each =>
    cases pushed
    refine .array (fun item inside => ?_)
    rcases List.mem_append.mp inside with kept | added
    · exact each item kept
    · rw [List.mem_singleton.mp added]
      exact validItem
  | _ => cases pushed

theorem eachText_setMember {members : List (Text × Json)} {key : Text}
    (valid : EachText property (.object members)) (validKey : property key) (validValue : EachText property v) :
    EachText property (.object (setMember members key v)) := by
  rw [eachText_object] at valid ⊢
  intro m inside
  rcases mem_of_mem_setMember inside with rfl | kept
  · exact ⟨validKey, validValue⟩
  · exact valid m kept

theorem eachText_eraseMember {members : List (Text × Json)} (valid : EachText property (.object members))
    (key : Text) : EachText property (.object (eraseMember members key)) := by
  rw [eachText_object] at valid ⊢
  exact fun m inside => valid m (List.mem_of_mem_filter inside)

end Changed

/-! ## Text -/

def separated (parts : List Text) : Text := (parts.intersperse [byte ',']).flatten

def quoted (s : Text) : Text :=
  [byte '"'] ++ s.flatMap (fun c => if c = byte '"' ∨ c = byte '\\' then [byte '\\', c] else [c]) ++ [byte '"']

mutual

/-- The text of a value without blanks, for text without control characters. -/
def compact : Json → Text
  | .null => text "null"
  | .boolean b => if b then text "true" else text "false"
  | .integer n => decimal n
  | .float mantissa exponent => decimal mantissa ++ text "e" ++ decimal exponent
  | .string s => quoted s
  | .array items => text "[" ++ separated (compactItems items) ++ text "]"
  | .object members => text "\x7b" ++ separated (compactMembers members) ++ text "\x7d"

def compactItems : List Json → List Text
  | [] => []
  | item :: rest => compact item :: compactItems rest

def compactMembers : List (Text × Json) → List Text
  | [] => []
  | (key, v) :: rest => (quoted key ++ [byte ':'] ++ compact v) :: compactMembers rest

end

example : compact (.object [(text "a", .array [.integer (-1), .string (text "\"")])]) =
    text "\x7b\"a\":[-1,\"\\\"\"]\x7d" := by decide +kernel

end Json


/-- The reader and the writer of a JSON library; the writer gives nothing where it throws. -/
structure JsonLib where
  parse : Text → Except JsonError Json
  dump : Json → Option Text

def RoundTrips (lib : JsonLib) : Prop := ∀ j content, lib.dump j = some content → lib.parse content = .ok j

def tableLib (table : List (Json × Text)) : JsonLib where
  parse content :=
    match table.find? (fun row => row.2 = content) with
    | some row => pure row.1
    | none => .error .parseError
  dump j := (table.find? (fun row => row.1 = j)).map Prod.snd

def compactLib (values : List Json) : JsonLib := tableLib (values.map (fun j => (j, j.compact)))

theorem tableLib_roundTrips {table : List (Json × Text)} (distinct : (table.map Prod.snd).Nodup) :
    RoundTrips (tableLib table) := by
  intro j content dumped
  obtain ⟨row, found, rfl⟩ := Option.map_eq_some_iff.mp dumped
  obtain rfl : row.1 = j := by simpa using List.find?_some found
  have looked := (find?_eq_some distinct row).mpr ⟨List.mem_of_find?_eq_some found, rfl⟩
  simp only [tableLib, looked]
  rfl

example : Json.object [(text "a", .integer 1)] ≠ Json.object [(text "a", .array [.null])] := by decide

example : Json.getInt (.float 110 (-1)) = .ok 11 := by decide

end DivoomDev.Library.JsonValues
