import Mathlib

/-! Byte strings and the part of the C++ string library that text processing rests on:
searching, cutting, reading lines and reading numbers. A read that C++ ends with an
exception is an error value here, never a default. -/

namespace DivoomDev.Library.Bytes

/-- A `std::string`: bytes, with no promise about their encoding. -/
abbrev Text := List UInt8

def text (literal : String) : Text := literal.toByteArray.data.toList

def byte (literal : Char) : UInt8 := literal.toUInt8

/-- The exceptions of `std::stoi` and `std::string::substr`. -/
inductive StdError where
  | invalidArgument
  | outOfRange
  deriving DecidableEq, Repr

/-! ## Searching and cutting -/

/-- `s.find(pattern)`: where the first occurrence starts. -/
def find (pattern : Text) : Text → Option Nat
  | [] => if pattern = [] then some 0 else none
  | c :: rest =>
      if pattern.isPrefixOf (c :: rest) then some 0 else (find pattern rest).map (· + 1)

/-- `s.rfind(c)`: the last position of a byte. -/
def rfind (c : UInt8) (s : Text) : Option Nat :=
  (s.reverse.idxOf? c).map (fun i => s.length - 1 - i)

/-- The bytes from `start`, at most `count` of them. -/
def piece (s : Text) (start count : Nat) : Text := (s.drop start).take count

/-- `s.substr(start, count)`, which throws when `start` is past the end. -/
def substr (s : Text) (start count : Nat) : Except StdError Text :=
  if start ≤ s.length then .ok (piece s start count) else .error .outOfRange

theorem substr_of_le {s : Text} {start : Nat} (inside : start ≤ s.length) (count : Nat) :
    substr s start count = .ok (piece s start count) := if_pos inside

/-- The first match of a pattern anywhere in the text, as `std::regex_search` reports it.
The pattern is given by what it matches at a fixed position. -/
def search {α : Type} (matchAt : Text → Option α) : Text → Option α
  | [] => matchAt []
  | c :: rest => (matchAt (c :: rest)).or (search matchAt rest)

theorem search_property {α : Type} {matchAt : Text → Option α} {P : α → Prop}
    (local' : ∀ s found, matchAt s = some found → P found) (s : Text) (found : α)
    (hit : search matchAt s = some found) : P found := by
  induction s with
  | nil => exact local' _ _ hit
  | cons c rest ih =>
    rcases Option.or_eq_some_iff.mp hit with here | ⟨_, later⟩
    · exact local' _ _ here
    · exact ih later

theorem idxOf?_append {c : UInt8} {front : Text} (absent : c ∉ front) (rest : Text) :
    (front ++ c :: rest).idxOf? c = some front.length := by
  induction front with
  | nil => simp [List.idxOf?_cons]
  | cons d front ih =>
    have different : d ≠ c := (List.ne_of_not_mem_cons absent).symm
    rw [List.cons_append, List.idxOf?_cons, ih (List.not_mem_of_not_mem_cons absent)]
    simp [different]

/-- `std::getline(stream, line, delimiter)` called until it fails: the pieces between
delimiters, without an empty piece after a final delimiter. -/
def getlines (delimiter : UInt8) : Text → List Text
  | [] => []
  | c :: rest =>
      if c = delimiter then [] :: getlines delimiter rest
      else match getlines delimiter rest with
        | [] => [[c]]
        | line :: lines => (c :: line) :: lines

/-- Both ends without the bytes of a class, as `find_first_not_of` and
`find_last_not_of` delimit it. -/
def strip (blank : UInt8 → Bool) (s : Text) : Text :=
  ((s.dropWhile blank).reverse.dropWhile blank).reverse

theorem strip_append {blank : UInt8 → Bool} {c : UInt8} (isBlank : blank c = true) (s : Text) :
    strip blank (s ++ [c]) = strip blank s := by
  unfold strip
  rw [List.dropWhile_append]
  split_ifs with empty
  · rw [List.isEmpty_iff.mp empty]
    simp [isBlank]
  · simp [isBlank]

/-! ## Lines -/

/-- Lines that the delimiter ends, one after the other. -/
def joinLines (delimiter : UInt8) (lines : List Text) : Text := lines.flatMap (· ++ [delimiter])

theorem getlines_cons {delimiter : UInt8} {line : Text} (whole : delimiter ∉ line) (rest : Text) :
    getlines delimiter (line ++ delimiter :: rest) = line :: getlines delimiter rest := by
  induction line with
  | nil => simp [getlines]
  | cons c line ih =>
    have different : c ≠ delimiter := (List.ne_of_not_mem_cons whole).symm
    rw [List.cons_append, getlines, if_neg different, ih (List.not_mem_of_not_mem_cons whole)]

theorem getlines_last {delimiter : UInt8} {line : Text} (whole : delimiter ∉ line) (nonempty : line ≠ []) :
    getlines delimiter line = [line] := by
  induction line with
  | nil => exact absurd rfl nonempty
  | cons c line ih =>
    have different : c ≠ delimiter := (List.ne_of_not_mem_cons whole).symm
    rw [getlines, if_neg different]
    cases line with
    | nil => rfl
    | cons d line => rw [ih (List.not_mem_of_not_mem_cons whole) (List.cons_ne_nil _ _)]

/-- Lines without the delimiter are read back, and then what stands behind them. -/
theorem getlines_joinLines {delimiter : UInt8} {lines : List Text} (whole : ∀ line ∈ lines, delimiter ∉ line)
    (rest : Text) :
    getlines delimiter (joinLines delimiter lines ++ rest) = lines ++ getlines delimiter rest := by
  induction lines with
  | nil => rfl
  | cons line lines ih =>
    obtain ⟨first, others⟩ := List.forall_mem_cons.mp whole
    rw [joinLines, List.flatMap_cons, List.append_assoc, List.append_assoc, List.singleton_append,
      getlines_cons first, List.cons_append, ← ih others, joinLines]

theorem not_mem_of_mem_getlines {delimiter : UInt8} {s line : Text} (member : line ∈ getlines delimiter s) :
    delimiter ∉ line := by
  induction s generalizing line with
  | nil => cases member
  | cons c rest ih =>
    rw [getlines] at member
    split_ifs at member with ends
    · rcases List.mem_cons.mp member with rfl | later
      · exact List.not_mem_nil
      · exact ih later
    · split at member
      · rw [List.mem_singleton.mp member, List.mem_singleton]
        exact fun same => ends same.symm
      · next first lines found =>
        rcases List.mem_cons.mp member with rfl | later
        · have tail : delimiter ∉ first := ih (found ▸ List.mem_cons_self)
          exact List.not_mem_cons_of_ne_of_not_mem (fun same => ends same.symm) tail
        · exact ih (found ▸ List.mem_cons_of_mem _ later)

/-! ## Encoding -/

/-- Reads UTF-8 where `due` continuation bytes are due, the next one between `low` and `high`. -/
def utf8From : (due : Nat) → (low high : UInt8) → Text → Bool
  | 0, _, _, [] => true
  | _ + 1, _, _, [] => false
  | 0, _, _, c :: rest =>
      if c < 0x80 then utf8From 0 0x80 0xBF rest
      else if 0xC2 ≤ c ∧ c ≤ 0xDF then utf8From 1 0x80 0xBF rest
      -- no overlong forms, no surrogates and nothing past the last code point
      else if c = 0xE0 then utf8From 2 0xA0 0xBF rest
      else if c = 0xED then utf8From 2 0x80 0x9F rest
      else if 0xE1 ≤ c ∧ c ≤ 0xEF then utf8From 2 0x80 0xBF rest
      else if c = 0xF0 then utf8From 3 0x90 0xBF rest
      else if 0xF1 ≤ c ∧ c ≤ 0xF3 then utf8From 3 0x80 0xBF rest
      else if c = 0xF4 then utf8From 3 0x80 0x8F rest
      else false
  | due + 1, low, high, c :: rest => low ≤ c && c ≤ high && utf8From due 0x80 0xBF rest

def ValidUtf8 (s : Text) : Prop := utf8From 0 0x80 0xBF s = true

instance : DecidablePred ValidUtf8 := fun _ => inferInstanceAs (Decidable (_ = true))

example : ValidUtf8 (text "дата €") ∧ ¬ValidUtf8 [0xED, 0xA0, 0x80] := by decide

/-! ## Numbers -/

def isSpace (c : UInt8) : Bool := c.toNat = 32 || (9 ≤ c.toNat && c.toNat ≤ 13)

def isDigit (c : UInt8) : Bool := 48 ≤ c.toNat && c.toNat ≤ 57

def digitsValue (digits : Text) : Nat :=
  digits.foldl (fun value c => 10 * value + (c.toNat - 48)) 0

/-- A number in decimal, without leading zeroes. -/
def decimal (value : Int) : Text :=
  (if value < 0 then [byte '-'] else []) ++ (Nat.toDigits 10 value.natAbs).map Char.toUInt8

def intMin : Int := -2147483648
def intMax : Int := 2147483647

/-- The optional sign that `strtol` reads, with what follows it. -/
def readSign : Text → Int × Text
  | [] => (1, [])
  | c :: rest =>
      if c = byte '-' then (-1, rest) else if c = byte '+' then (1, rest) else (1, c :: rest)

/-- The whole number at the front of a text as `strtol` reads it in base ten: blanks, a
sign, then as many digits as there are. -/
def strtol (s : Text) : Option Int :=
  let signed := readSign (s.dropWhile isSpace)
  let digits := signed.2.takeWhile isDigit
  if digits = [] then none else some (signed.1 * digitsValue digits)

/-- `std::stoi`: the number at the front, if there is one and it is an `int`. -/
def stoi (s : Text) : Except StdError Int :=
  match strtol s with
  | none => .error .invalidArgument
  | some value => if intMin ≤ value ∧ value ≤ intMax then .ok value else .error .outOfRange

/-- Text that denotes an `int`: blanks, an optional sign and a non-empty run of digits
whose value is in range. Whatever follows the digits does not matter. -/
def IsNumber (s : Text) : Prop :=
  ∃ (blanks digits rest : Text) (sign : Int) (mark : Text),
    s = blanks ++ (mark ++ (digits ++ rest)) ∧ (∀ c ∈ blanks, isSpace c = true) ∧
    ((sign, mark) = (1, []) ∨ (sign, mark) = (1, [byte '+']) ∨ (sign, mark) = (-1, [byte '-'])) ∧
    digits ≠ [] ∧ (∀ c ∈ digits, isDigit c = true) ∧ (∀ c ∈ rest.head?, isDigit c = false) ∧
    intMin ≤ sign * digitsValue digits ∧ sign * digitsValue digits ≤ intMax

theorem isSpace_iff (c : UInt8) :
    isSpace c = true ↔ c.toNat = 32 ∨ (9 ≤ c.toNat ∧ c.toNat ≤ 13) := by
  simp [isSpace]

theorem isDigit_iff (c : UInt8) : isDigit c = true ↔ 48 ≤ c.toNat ∧ c.toNat ≤ 57 := by
  simp [isDigit]

theorem isSpace_false {c : UInt8}
    (start : isDigit c = true ∨ c = byte '+' ∨ c = byte '-') : isSpace c = false := by
  rw [← Bool.not_eq_true, isSpace_iff]
  rcases start with digit | rfl | rfl
  · rw [isDigit_iff] at digit
    omega
  · decide
  · decide

theorem readSign_digit {c : UInt8} (digit : isDigit c = true) (rest : Text) :
    readSign (c :: rest) = (1, c :: rest) := by
  rw [isDigit_iff] at digit
  have minus : c ≠ byte '-' := fun same => absurd (same ▸ digit) (by decide)
  have plus : c ≠ byte '+' := fun same => absurd (same ▸ digit) (by decide)
  simp only [readSign, if_neg minus, if_neg plus]

theorem takeWhile_digits {digits rest : Text} (all : ∀ c ∈ digits, isDigit c = true)
    (stop : ∀ c ∈ rest.head?, isDigit c = false) :
    (digits ++ rest).takeWhile isDigit = digits := by
  rw [List.takeWhile_append_of_pos all]
  cases rest with
  | nil => simp
  | cons c rest => simp [stop c rfl]

/-- Reading a number consumes exactly the blanks, the sign and the digits. -/
theorem strtol_number {blanks digits rest mark : Text} {sign : Int}
    (skipped : ∀ c ∈ blanks, isSpace c = true)
    (signed : (sign, mark) = (1, []) ∨ (sign, mark) = (1, [byte '+']) ∨
      (sign, mark) = (-1, [byte '-']))
    (some : digits ≠ []) (all : ∀ c ∈ digits, isDigit c = true)
    (stop : ∀ c ∈ rest.head?, isDigit c = false) :
    strtol (blanks ++ (mark ++ (digits ++ rest))) = Option.some (sign * digitsValue digits) := by
  obtain ⟨d, ds, rfl⟩ := List.exists_cons_of_ne_nil some
  have digit : isDigit d = true := all d (by simp)
  have body : (blanks ++ (mark ++ (d :: ds ++ rest))).dropWhile isSpace =
      mark ++ (d :: ds ++ rest) := by
    rw [List.dropWhile_append_of_pos skipped]
    rcases signed with same | same | same <;> cases same <;>
      simp [isSpace_false (.inl digit), isSpace_false (.inr (.inl rfl)),
        isSpace_false (.inr (.inr rfl))]
  have signRead : readSign (mark ++ (d :: ds ++ rest)) = (sign, d :: ds ++ rest) := by
    rcases signed with same | same | same <;> cases same
    · exact readSign_digit digit _
    · rfl
    · rfl
  simp only [strtol, body, signRead, takeWhile_digits all stop, reduceCtorEq, if_false]

theorem strtol_parts (s : Text) (value : Int) (read : strtol s = some value) :
    ∃ (blanks digits rest : Text) (sign : Int) (mark : Text),
      s = blanks ++ (mark ++ (digits ++ rest)) ∧ (∀ c ∈ blanks, isSpace c = true) ∧
      ((sign, mark) = (1, []) ∨ (sign, mark) = (1, [byte '+']) ∨ (sign, mark) = (-1, [byte '-'])) ∧
      digits ≠ [] ∧ (∀ c ∈ digits, isDigit c = true) ∧ (∀ c ∈ rest.head?, isDigit c = false) ∧
      value = sign * digitsValue digits := by
  have blanksAll : ∀ c ∈ s.takeWhile isSpace, isSpace c = true := fun c member =>
    List.mem_takeWhile_imp member
  have whole : s = s.takeWhile isSpace ++ s.dropWhile isSpace := List.takeWhile_append_dropWhile.symm
  obtain ⟨mark, marked, signed⟩ : ∃ mark, s.dropWhile isSpace = mark ++ (readSign (s.dropWhile isSpace)).2 ∧
      (((readSign (s.dropWhile isSpace)).1, mark) = (1, []) ∨
        ((readSign (s.dropWhile isSpace)).1, mark) = (1, [byte '+']) ∨
        ((readSign (s.dropWhile isSpace)).1, mark) = (-1, [byte '-'])) := by
    cases s.dropWhile isSpace with
    | nil => exact ⟨[], rfl, .inl rfl⟩
    | cons c rest =>
      by_cases minus : c = byte '-'
      · exact ⟨[byte '-'], by simp [readSign, minus], by simp [readSign, minus]⟩
      · by_cases plus : c = byte '+'
        · subst plus
          exact ⟨[byte '+'], by simp [readSign, minus], by simp [readSign, minus]⟩
        · exact ⟨[], by simp [readSign, minus, plus], by simp [readSign, minus, plus]⟩
  simp only [strtol] at read
  split at read
  · cases read
  · next found =>
    refine ⟨s.takeWhile isSpace, (readSign (s.dropWhile isSpace)).2.takeWhile isDigit,
      (readSign (s.dropWhile isSpace)).2.dropWhile isDigit, (readSign (s.dropWhile isSpace)).1, mark,
      ?_, blanksAll, signed, found, fun c member => List.mem_takeWhile_imp member, ?_, ?_⟩
    · rw [List.takeWhile_append_dropWhile, ← marked]
      exact whole
    · intro c first
      have kept := List.head?_dropWhile_not isDigit (readSign (s.dropWhile isSpace)).2
      simp only [Option.mem_def] at first
      simpa [first] using kept
    · exact (Option.some.inj read).symm

/-- `std::stoi` returns exactly on text that denotes an `int`. -/
theorem stoi_ok_iff (s : Text) : (∃ value, stoi s = .ok value) ↔ IsNumber s := by
  apply Iff.intro
  · intro given
    obtain ⟨value, read⟩ := given
    unfold stoi at read
    split at read
    · cases read
    · next found =>
      split at read
      · next inRange =>
        obtain ⟨blanks, digits, rest, sign, mark, split, skipped, signed, some, all, stop, rfl⟩ :=
          strtol_parts s _ found
        exact ⟨blanks, digits, rest, sign, mark, split, skipped, signed, some, all, stop, inRange⟩
      · cases read
  · intro given
    obtain ⟨blanks, digits, rest, sign, mark, rfl, skipped, signed, some, all, stop, inRange⟩ := given
    refine ⟨sign * digitsValue digits, ?_⟩
    simp only [stoi, strtol_number skipped signed some all stop, if_pos inRange]

instance : DecidablePred IsNumber := fun s =>
  decidable_of_iff ((stoi s).toOption.isSome) (by
    rw [← stoi_ok_iff]
    cases stoi s <;> simp [Except.toOption])

/-! ## Numbers written and read back -/

theorem isDigit_bounds {c : Char} (digit : c.isDigit = true) : 48 ≤ c.toNat ∧ c.toNat ≤ 57 := by
  simp only [Char.isDigit, Bool.and_eq_true, decide_eq_true_eq, ge_iff_le] at digit
  exact ⟨UInt32.le_iff_toNat_le.mp digit.1, UInt32.le_iff_toNat_le.mp digit.2⟩

theorem toUInt8_toNat {c : Char} (digit : c.isDigit = true) : c.toUInt8.toNat = c.toNat := by
  have bounds := isDigit_bounds digit
  have same : c.toUInt8.toNat = c.toNat % 256 := UInt32.toNat_toUInt8 c.val
  omega

theorem digit_of_mem_toDigits {n : Nat} {c : UInt8} (member : c ∈ (Nat.toDigits 10 n).map Char.toUInt8) :
    isDigit c = true := by
  obtain ⟨char, inDigits, rfl⟩ := List.mem_map.mp member
  have digit : char.isDigit = true := Nat.isDigit_of_mem_toDigits (by decide) (by decide) inDigits
  rw [isDigit_iff, toUInt8_toNat digit]
  exact isDigit_bounds digit

theorem digitsValue_toDigits (n : Nat) : digitsValue ((Nat.toDigits 10 n).map Char.toUInt8) = n := by
  have same (value : Nat) (c : Char) (member : c ∈ Nat.toDigits 10 n) :
      10 * value + (c.toUInt8.toNat - 48) = 10 * value + (c.toNat - '0'.toNat) := by
    rw [toUInt8_toNat (Nat.isDigit_of_mem_toDigits (by decide) (by decide) member)]
    rfl
  calc digitsValue ((Nat.toDigits 10 n).map Char.toUInt8)
      = Nat.ofDigitChars 10 (Nat.toDigits 10 n) 0 := by
        rw [Nat.ofDigitChars_eq_foldl, digitsValue, List.foldl_map]
        exact List.foldl_ext _ _ 0 same
    _ = n := Nat.ofDigitChars_ten_toDigits

theorem stoi_digits {digits : Text} (some : digits ≠ []) (all : ∀ c ∈ digits, isDigit c = true)
    (small : (digitsValue digits : Int) ≤ intMax) : stoi digits = .ok (digitsValue digits) := by
  have read := strtol_number (List.forall_mem_nil _) (.inl rfl) some all (show ∀ c ∈ ([] : Text).head?, _ by simp)
  rw [List.nil_append, List.nil_append, List.append_nil, Int.one_mul] at read
  have inRange : intMin ≤ (digitsValue digits : Int) ∧ (digitsValue digits : Int) ≤ intMax := by
    simp only [intMin] at *
    omega
  simp only [stoi, read, if_pos inRange]

/-- A number in decimal reads back. -/
theorem strtol_decimal (value : Int) : strtol (decimal value) = some value := by
  have digits : (Nat.toDigits 10 value.natAbs).map Char.toUInt8 ≠ [] := by
    simp [Nat.toDigits_ne_nil]
  have read (sign : Int) (mark : Text) (signed : (sign, mark) = (1, []) ∨
      (sign, mark) = (1, [byte '+']) ∨ (sign, mark) = (-1, [byte '-'])) :
      strtol (mark ++ (Nat.toDigits 10 value.natAbs).map Char.toUInt8) =
        some (sign * value.natAbs) := by
    have whole := strtol_number (List.forall_mem_nil _) signed digits
      (fun _ member => digit_of_mem_toDigits member) (show ∀ c ∈ ([] : Text).head?, _ by simp)
    simpa only [List.nil_append, List.append_nil, digitsValue_toDigits] using whole
  by_cases negative : value < 0
  · rw [decimal, if_pos negative, read (-1) _ (.inr (.inr rfl))]
    congr 1
    omega
  · rw [decimal, if_neg negative, read 1 _ (.inl rfl)]
    congr 1
    omega

theorem decimal_bytes {value : Int} {c : UInt8} (member : c ∈ decimal value) :
    c = byte '-' ∨ isDigit c = true := by
  rcases List.mem_append.mp member with sign | digits
  · split_ifs at sign
    · exact .inl (List.mem_singleton.mp sign)
    · cases sign
  · exact .inr (digit_of_mem_toDigits digits)

/-- The largest `unsigned long long`. -/
def ullongMax : Int := 18446744073709551615

/-- `std::stoull` into 64 bits: what has a minus sign counts down from two to the 64th. -/
def stoull (s : Text) : Except StdError UInt64 :=
  match strtol s with
  | none => .error .invalidArgument
  | some value =>
      if -ullongMax ≤ value ∧ value ≤ ullongMax then .ok (UInt64.ofInt value) else .error .outOfRange

def llongMin : Int := -9223372036854775808
def llongMax : Int := 9223372036854775807

def stoll (s : Text) : Except StdError Int :=
  match strtol s with
  | none => .error .invalidArgument
  | some value => if llongMin ≤ value ∧ value ≤ llongMax then .ok value else .error .outOfRange

theorem stoull_decimal (value : UInt64) : stoull (decimal value.toNat) = .ok value := by
  have bound : value.toNat < 18446744073709551616 := value.toNat_lt
  have inRange : -ullongMax ≤ (value.toNat : Int) ∧ (value.toNat : Int) ≤ ullongMax := by
    simp only [ullongMax]
    omega
  have same : UInt64.ofInt (value.toNat : Int) = value := by
    rw [UInt64.ofInt, Int.emod_eq_of_lt (by omega) (by omega), Int.toNat_natCast, UInt64.ofNat_toNat]
  simp only [stoull, strtol_decimal, if_pos inRange, same]

theorem stoll_decimal {value : Int} (inRange : llongMin ≤ value ∧ value ≤ llongMax) :
    stoll (decimal value) = .ok value := by
  simp only [stoll, strtol_decimal, if_pos inRange]

end DivoomDev.Library.Bytes
