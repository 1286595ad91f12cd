import DivoomDev.Library.Base64

/-! The authorization of the Jenkins client: user name and token behind each other, in Base64. -/

namespace DivoomDev.Jenkins.Client
open DivoomDev.Library.Bytes DivoomDev.Library

def base64Chars : Text :=
  text "ABCDEFGHIJKLMNOPQRSTUVWXYZ" ++ text "abcdefghijklmnopqrstuvwxyz" ++ text "0123456789+/"

/-- The local variables of `EncodeBase64`. -/
structure Encoder where
  i : Nat := 0
  charArray3 : Vector UInt8 3
  ret : Text := []

def charArray4 (charArray3 : Vector UInt8 3) : Vector UInt8 4 :=
  #v[(charArray3[0] &&& 0xfc) >>> 2,
    ((charArray3[0] &&& 0x03) <<< 4) + ((charArray3[1] &&& 0xf0) >>> 4),
    ((charArray3[1] &&& 0x0f) <<< 2) + ((charArray3[2] &&& 0xc0) >>> 6),
    charArray3[2] &&& 0x3f]

/-- `base64_chars[c]`, which is the terminating zero at the end of the table. -/
def base64Char (c : UInt8) : UInt8 := base64Chars.getD c.toNat 0

/-- One pass of the loop. -/
def Encoder.push (e : Encoder) (c : UInt8) : Encoder :=
  let e := { e with charArray3 := e.charArray3.setIfInBounds e.i c, i := e.i + 1 }
  if e.i = 3 then
    { e with ret := e.ret ++ (charArray4 e.charArray3).toList.map base64Char, i := 0 }
  else e

/-- What stands behind the loop, for one or two bytes that are left. -/
def Encoder.finish (e : Encoder) : Text :=
  if e.i = 0 then e.ret
  else
    let charArray3 : Vector UInt8 3 := Vector.ofFn (fun j => if j < e.i then e.charArray3[j] else 0)
    e.ret ++ ((charArray4 charArray3).toList.take (e.i + 1)).map base64Char ++
      List.replicate (3 - e.i) (byte '=')

/-- `EncodeBase64`; its buffer is not initialised, so it starts as what the memory held. -/
def encodeBase64 (memory : Vector UInt8 3) (bytesToEncode : Text) : Text :=
  (bytesToEncode.foldl Encoder.push { charArray3 := memory }).finish

/-- The `Authorization` of `PrepareAuthHeaders`. -/
def authorization (memory : Vector UInt8 3) (username token : Text) : Text :=
  text "Basic " ++ encodeBase64 memory (username ++ text ":" ++ token)

/-! ## Bits of one group -/

theorem base64Char_eq {c : UInt8} {d : Nat} (value : c.toNat = d) (small : d < 64) :
    base64Char c = Base64.character d := by
  have each : ∀ d < 64, base64Chars.getD d 0 = Base64.character d := by decide +kernel
  rw [base64Char, value]
  exact each d small

/-- A fact about a byte from its 256 cases. -/
theorem forall_byte {P : UInt8 → Prop} (each : ∀ n < 256, P (UInt8.ofNat n)) (c : UInt8) : P c := by
  have value := each c.toNat c.toNat_lt
  rwa [UInt8.ofNat_toNat] at value

theorem high6 (c : UInt8) : ((c &&& 0xfc) >>> 2).toNat = c.toNat / 4 :=
  forall_byte (P := fun c => ((c &&& 0xfc) >>> 2).toNat = c.toNat / 4) (by decide +kernel) c

theorem low2 (c : UInt8) : ((c &&& 0x03) <<< 4).toNat = c.toNat % 4 * 16 :=
  forall_byte (P := fun c => ((c &&& 0x03) <<< 4).toNat = c.toNat % 4 * 16) (by decide +kernel) c

theorem high4 (c : UInt8) : ((c &&& 0xf0) >>> 4).toNat = c.toNat / 16 :=
  forall_byte (P := fun c => ((c &&& 0xf0) >>> 4).toNat = c.toNat / 16) (by decide +kernel) c

theorem low4 (c : UInt8) : ((c &&& 0x0f) <<< 2).toNat = c.toNat % 16 * 4 :=
  forall_byte (P := fun c => ((c &&& 0x0f) <<< 2).toNat = c.toNat % 16 * 4) (by decide +kernel) c

theorem high2 (c : UInt8) : ((c &&& 0xc0) >>> 6).toNat = c.toNat / 64 :=
  forall_byte (P := fun c => ((c &&& 0xc0) >>> 6).toNat = c.toNat / 64) (by decide +kernel) c

theorem low6 (c : UInt8) : (c &&& 0x3f).toNat = c.toNat % 64 :=
  forall_byte (P := fun c => (c &&& 0x3f).toNat = c.toNat % 64) (by decide +kernel) c

/-- The four bytes of a group are the digits of its 24 bits. -/
theorem charArray4_map (a b c : UInt8) :
    let bits := (a.toNat * 256 + b.toNat) * 256 + c.toNat
    (charArray4 #v[a, b, c]).toList.map base64Char = [Base64.character (bits / 262144),
      Base64.character (bits / 4096 % 64), Base64.character (bits / 64 % 64), Base64.character (bits % 64)] := by
  intro bits
  have boundA : a.toNat < 256 := a.toNat_lt
  have boundB : b.toNat < 256 := b.toNat_lt
  have boundC : c.toNat < 256 := c.toNat_lt
  have first : ((a &&& 0xfc) >>> 2).toNat = bits / 262144 := by
    rw [high6]
    omega
  have second : (((a &&& 0x03) <<< 4) + ((b &&& 0xf0) >>> 4)).toNat = bits / 4096 % 64 := by
    rw [UInt8.toNat_add, low2, high4]
    omega
  have third : (((b &&& 0x0f) <<< 2) + ((c &&& 0xc0) >>> 6)).toNat = bits / 64 % 64 := by
    rw [UInt8.toNat_add, low4, high2]
    omega
  have fourth : (c &&& 0x3f).toNat = bits % 64 := by
    rw [low6]
    omega
  rw [← base64Char_eq first (by omega), ← base64Char_eq second (by omega), ← base64Char_eq third (by omega),
    ← base64Char_eq fourth (by omega)]
  rfl

/-! ## The loop -/

theorem vector3_ext {u v : Vector UInt8 3} (first : u[0] = v[0]) (second : u[1] = v[1])
    (third : u[2] = v[2]) : u = v := by
  apply Vector.ext
  intro i inside
  match i with
  | 0 => exact first
  | 1 => exact second
  | 2 => exact third

theorem finish_one (memory : Vector UInt8 3) (ret : Text) (a : UInt8) :
    (Encoder.push ⟨0, memory, ret⟩ a).finish =
      ret ++ ((charArray4 #v[a, 0, 0]).toList.map base64Char).take 2 ++ [byte '=', byte '='] := by
  have filled : (Vector.ofFn fun j : Fin 3 => if j.val < 1 then (memory.setIfInBounds 0 a)[j] else 0) =
      #v[a, 0, 0] :=
    vector3_ext (by simp) (by simp) (by simp)
  have pushed : Encoder.push ⟨0, memory, ret⟩ a = ⟨1, memory.setIfInBounds 0 a, ret⟩ := rfl
  rw [pushed, ← List.map_take, ← filled]
  rfl

theorem finish_two (memory : Vector UInt8 3) (ret : Text) (a b : UInt8) :
    ((Encoder.push ⟨0, memory, ret⟩ a).push b).finish =
      ret ++ ((charArray4 #v[a, b, 0]).toList.map base64Char).take 3 ++ [byte '='] := by
  have filled : (Vector.ofFn fun j : Fin 3 =>
      if j.val < 2 then ((memory.setIfInBounds 0 a).setIfInBounds 1 b)[j] else 0) = #v[a, b, 0] :=
    vector3_ext (by simp) (by simp) (by simp)
  have pushed : (Encoder.push ⟨0, memory, ret⟩ a).push b =
      ⟨2, (memory.setIfInBounds 0 a).setIfInBounds 1 b, ret⟩ := rfl
  rw [pushed, ← List.map_take, ← filled]
  rfl

theorem push_three (memory : Vector UInt8 3) (ret : Text) (a b c : UInt8) :
    ((Encoder.push ⟨0, memory, ret⟩ a).push b).push c =
      ⟨0, #v[a, b, c], ret ++ (charArray4 #v[a, b, c]).toList.map base64Char⟩ := by
  have filled : ((memory.setIfInBounds 0 a).setIfInBounds 1 b).setIfInBounds 2 c = #v[a, b, c] :=
    vector3_ext (by simp) (by simp) (by simp)
  have pushed : ((Encoder.push ⟨0, memory, ret⟩ a).push b).push c =
      ⟨0, ((memory.setIfInBounds 0 a).setIfInBounds 1 b).setIfInBounds 2 c,
        ret ++ (charArray4 (((memory.setIfInBounds 0 a).setIfInBounds 1 b).setIfInBounds 2 c)).toList.map
          base64Char⟩ := rfl
  rw [pushed, filled]

/-- Between two groups, what the loop has left to do is the encoding of the bytes that are left. -/
theorem finish_eq (memory : Vector UInt8 3) (ret input : Text) :
    (input.foldl Encoder.push ⟨0, memory, ret⟩).finish = ret ++ Base64.encode input := by
  fun_induction Base64.encode input generalizing memory ret with
  | case1 => simp [Encoder.finish]
  | case2 a bits =>
    have group := charArray4_map a 0 0
    have first : ((a.toNat * 256 + 0) * 256 + 0) / 262144 = bits / 64 := by omega
    have second : ((a.toNat * 256 + 0) * 256 + 0) / 4096 % 64 = bits % 64 := by omega
    rw [List.foldl_cons, List.foldl_nil, finish_one, group]
    simp only [UInt8.toNat_zero, first, second, List.take, List.append_assoc]
    rfl
  | case3 a b bits =>
    have group := charArray4_map a b 0
    have first : ((a.toNat * 256 + b.toNat) * 256 + 0) / 262144 = bits / 4096 := by omega
    have second : ((a.toNat * 256 + b.toNat) * 256 + 0) / 4096 % 64 = bits / 64 % 64 := by omega
    have third : ((a.toNat * 256 + b.toNat) * 256 + 0) / 64 % 64 = bits % 64 := by omega
    rw [List.foldl_cons, List.foldl_cons, List.foldl_nil, finish_two, group]
    simp only [UInt8.toNat_zero, first, second, third, List.take, List.append_assoc]
    rfl
  | case4 a b c rest bits ih =>
    have group := charArray4_map a b c
    rw [List.foldl_cons, List.foldl_cons, List.foldl_cons, push_three, ih, group, List.append_assoc]
    rfl

theorem encodeBase64_eq (memory : Vector UInt8 3) (bytesToEncode : Text) :
    encodeBase64 memory bytesToEncode = Base64.encode bytesToEncode := by
  rw [encodeBase64, finish_eq, List.nil_append]

/-- The characters are those of the alphabet behind which the padding fills up the last group,
and decoded they give the bytes. -/
theorem encodeBase64_decodes (memory : Vector UInt8 3) (bytesToEncode : Text) :
    (encodeBase64 memory bytesToEncode).length = 4 * ((bytesToEncode.length + 2) / 3) ∧
      (∃ body, encodeBase64 memory bytesToEncode =
          body ++ List.replicate ((3 - bytesToEncode.length % 3) % 3) (byte '=') ∧
        ∀ c ∈ body, c ∈ Base64.alphabet) ∧
      encodeBase64 memory bytesToEncode = Base64.encode bytesToEncode ∧
      Base64.decode (encodeBase64 memory bytesToEncode) = some bytesToEncode := by
  rw [encodeBase64_eq]
  exact ⟨Base64.encode_length _, Base64.encode_characters _, rfl, Base64.decode_encode _⟩

/-- The server reads the user name and the token out of the header. -/
theorem authorization_decodes (memory : Vector UInt8 3) (username token : Text) :
    ∃ credentials, authorization memory username token = text "Basic " ++ credentials ∧
      Base64.decode credentials = some (username ++ text ":" ++ token) :=
  ⟨_, rfl, by rw [encodeBase64_eq, Base64.decode_encode]⟩

end DivoomDev.Jenkins.Client
