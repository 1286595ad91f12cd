import DivoomDev.Library.Bytes

/-! Base64 with the standard alphabet and padding: three bytes are the four digits of a number
of 24 bits, and a shorter group is filled up with zero bits and then with the padding. The
decoder takes nothing else. -/

namespace DivoomDev.Library.Base64
open DivoomDev.Library.Bytes

def alphabet : Text := text "ABCDEFGHIJKLMNOPQRSTUVWXYZabcdefghijklmnopqrstuvwxyz0123456789+/"

def padding : UInt8 := byte '='

/-- The character of a digit to the base of 64. -/
def character (digit : Nat) : UInt8 := alphabet.getD digit padding

def digit (c : UInt8) : Option Nat := alphabet.idxOf? c

def encode : Text → Text
  | [] => []
  | [a] =>
      let bits := a.toNat * 16
      [character (bits / 64), character (bits % 64), padding, padding]
  | [a, b] =>
      let bits := (a.toNat * 256 + b.toNat) * 4
      [character (bits / 4096), character (bits / 64 % 64), character (bits % 64), padding]
  | a :: b :: c :: rest =>
      let bits := (a.toNat * 256 + b.toNat) * 256 + c.toNat
      character (bits / 262144) :: character (bits / 4096 % 64) :: character (bits / 64 % 64) ::
        character (bits % 64) :: encode rest

/-- Four characters without padding. -/
def decodeGroup (w x y z : UInt8) : Option Text := do
  let bits := (((← digit w) * 64 + (← digit x)) * 64 + (← digit y)) * 64 + (← digit z)
  pure [UInt8.ofNat (bits / 65536), UInt8.ofNat (bits / 256 % 256), UInt8.ofNat (bits % 256)]

/-- The last four characters, which may end with padding. What fills up the bits must be zero. -/
def decodeLast (w x y z : UInt8) : Option Text :=
  if z ≠ padding then decodeGroup w x y z
  else if y ≠ padding then do
    let bits := ((← digit w) * 64 + (← digit x)) * 64 + (← digit y)
    if bits % 4 = 0 then pure [UInt8.ofNat (bits / 1024), UInt8.ofNat (bits / 4 % 256)] else none
  else do
    let bits := (← digit w) * 64 + (← digit x)
    if bits % 16 = 0 then pure [UInt8.ofNat (bits / 16)] else none

def decode : Text → Option Text
  | [] => some []
  | [w, x, y, z] => decodeLast w x y z
  | w :: x :: y :: z :: rest => do pure ((← decodeGroup w x y z) ++ (← decode rest))
  | _ => none

example : encode (text "user:pw") = text "dXNlcjpwdw==" := by decide +kernel

example : decode (text "dXNlcjpwdw==") = some (text "user:pw") := by decide +kernel

/-! ## Digits -/

theorem digit_character {d : Nat} (small : d < 64) : digit (character d) = some d := by
  have each : ∀ d < 64, digit (character d) = some d := by decide +kernel
  exact each d small

theorem character_mem {d : Nat} (small : d < 64) : character d ∈ alphabet := by
  have each : ∀ d < 64, character d ∈ alphabet := by decide +kernel
  exact each d small

theorem padding_not_mem : padding ∉ alphabet := by decide +kernel

theorem character_ne_padding {d : Nat} (small : d < 64) : character d ≠ padding := fun same =>
  padding_not_mem (same ▸ character_mem small)

/-! ## Round trip -/

theorem decodeGroup_digits {p q r s : Nat} (first : p < 64) (second : q < 64) (third : r < 64) (fourth : s < 64) :
    decodeGroup (character p) (character q) (character r) (character s) =
      some [UInt8.ofNat ((((p * 64 + q) * 64 + r) * 64 + s) / 65536),
        UInt8.ofNat ((((p * 64 + q) * 64 + r) * 64 + s) / 256 % 256),
        UInt8.ofNat ((((p * 64 + q) * 64 + r) * 64 + s) % 256)] := by
  simp [decodeGroup, digit_character, first, second, third, fourth]

theorem decodeGroup_encode (a b c : UInt8) :
    let bits := (a.toNat * 256 + b.toNat) * 256 + c.toNat
    decodeGroup (character (bits / 262144)) (character (bits / 4096 % 64)) (character (bits / 64 % 64))
      (character (bits % 64)) = some [a, b, c] := by
  intro bits
  have boundA : a.toNat < 256 := a.toNat_lt
  have boundB : b.toNat < 256 := b.toNat_lt
  have boundC : c.toNat < 256 := c.toNat_lt
  have whole : ((bits / 262144 * 64 + bits / 4096 % 64) * 64 + bits / 64 % 64) * 64 + bits % 64 = bits := by
    omega
  rw [decodeGroup_digits (by omega) (by omega) (by omega) (by omega), whole]
  have front : bits / 65536 = a.toNat := by omega
  have middle : bits / 256 % 256 = b.toNat := by omega
  have back : bits % 256 = c.toNat := by omega
  rw [front, middle, back]
  simp

theorem decode_encode (bytes : Text) : decode (encode bytes) = some bytes := by
  fun_induction encode bytes with
  | case1 => rfl
  | case2 a bits =>
    have bound : a.toNat < 256 := a.toNat_lt
    have whole : bits / 64 * 64 + bits % 64 = bits := by omega
    have value : bits / 16 = a.toNat := by omega
    have filled : bits % 16 = 0 := by omega
    simp [decode, decodeLast, digit_character (show bits / 64 < 64 by omega),
      digit_character (show bits % 64 < 64 by omega), whole, value, filled]
  | case3 a b bits =>
    have boundA : a.toNat < 256 := a.toNat_lt
    have boundB : b.toNat < 256 := b.toNat_lt
    have whole : (bits / 4096 * 64 + bits / 64 % 64) * 64 + bits % 64 = bits := by omega
    have front : bits / 1024 = a.toNat := by omega
    have back : bits / 4 % 256 = b.toNat := by omega
    have filled : bits % 4 = 0 := by omega
    simp [decode, decodeLast, character_ne_padding (show bits % 64 < 64 by omega),
      digit_character (show bits / 4096 < 64 by omega), digit_character (show bits / 64 % 64 < 64 by omega),
      digit_character (show bits % 64 < 64 by omega), whole, front, back, filled]
  | case4 a b c rest bits ih =>
    have group : decodeGroup _ _ _ _ = some [a, b, c] := decodeGroup_encode a b c
    cases later : encode rest with
    | nil =>
      rw [later] at ih
      cases ih
      have last : character (bits % 64) ≠ padding := character_ne_padding (by omega)
      rw [decode, decodeLast, if_pos last]
      exact group
    | cons d others =>
      rw [later] at ih
      rw [decode]
      · simp [group, ih, bits]
      · simp

/-! ## Length and characters -/

theorem encode_length (bytes : Text) : (encode bytes).length = 4 * ((bytes.length + 2) / 3) := by
  fun_induction encode bytes with
  | case1 => rfl
  | case2 a bits => simp
  | case3 a b bits => simp
  | case4 a b c rest bits ih =>
    simp only [List.length_cons, ih]
    omega

/-- The padding that a text of this length needs. -/
def paddingLength (length : Nat) : Nat := (3 - length % 3) % 3

theorem encode_characters (bytes : Text) : ∃ body, encode bytes =
    body ++ List.replicate (paddingLength bytes.length) padding ∧ ∀ c ∈ body, c ∈ alphabet := by
  fun_induction encode bytes with
  | case1 => exact ⟨[], rfl, by simp⟩
  | case2 a bits =>
    have bound : a.toNat < 256 := a.toNat_lt
    refine ⟨[_, _], rfl, ?_⟩
    simp only [List.forall_mem_cons, List.not_mem_nil, false_implies, implies_true, and_true]
    exact ⟨character_mem (by omega), character_mem (by omega)⟩
  | case3 a b bits =>
    have boundA : a.toNat < 256 := a.toNat_lt
    have boundB : b.toNat < 256 := b.toNat_lt
    refine ⟨[_, _, _], rfl, ?_⟩
    simp only [List.forall_mem_cons, List.not_mem_nil, false_implies, implies_true, and_true]
    exact ⟨character_mem (by omega), character_mem (by omega), character_mem (by omega)⟩
  | case4 a b c rest bits ih =>
    have boundA : a.toNat < 256 := a.toNat_lt
    have boundB : b.toNat < 256 := b.toNat_lt
    have boundC : c.toNat < 256 := c.toNat_lt
    obtain ⟨body, later, inAlphabet⟩ := ih
    have same : paddingLength (rest.length + 1 + 1 + 1) = paddingLength rest.length := by
      simp only [paddingLength]
      omega
    refine ⟨character (bits / 262144) :: character (bits / 4096 % 64) :: character (bits / 64 % 64) ::
      character (bits % 64) :: body, ?_, ?_⟩
    · rw [later]
      simp only [List.length_cons, same, List.cons_append]
    · simp only [List.forall_mem_cons]
      exact ⟨character_mem (by omega), character_mem (by omega), character_mem (by omega),
        character_mem (by omega), inAlphabet⟩

end DivoomDev.Library.Base64
