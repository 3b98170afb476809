import Fctf.Access.InviteCode
import Fctf.Access.SignedValue
import Fctf.Lib.BlockMode

/-!
The passwords of KYPO accounts, as they are stored: AES-256 in CBC mode, the initial vector and
the ciphertext together in Base64. The platform writes and reads them in Python,
`AesHelper` in C#.
-/

namespace Fctf.Kypo

open BlockMode

/-- AES: a permutation of the blocks for every key. -/
abbrev Aes := Block 32 → Equiv.Perm (Block 16)

/-! ### .NET -/

/-- How many bytes one replacement character stands for: the longest beginning of a character. -/
def invalidLength : List UInt8 → Nat
  | [] => 0
  | a :: rest =>
    match firstByte a, rest with
    | some (n, low, high), b :: after =>
      if isTail b low high then
        2 + ((after.take (n - 2)).takeWhile fun c => isTail c 0x80 0xBF).length
      else 1
    | _, _ => 1

/-- `Encoding.UTF8.GetString`, with as many turns as there are bytes. -/
def getStringFrom : Nat → List UInt8 → List Char
  | 0, _ => []
  | turns + 1, bytes =>
    if bytes.isEmpty then []
    else
      match bytes.toByteArray.utf8DecodeChar? 0 with
      | some c => c :: getStringFrom turns (bytes.drop c.utf8Size)
      | none => Json.replacement :: getStringFrom turns (bytes.drop (invalidLength bytes))

def getString (bytes : List UInt8) : List Char := getStringFrom bytes.length bytes

/-- `Array.Copy` of the first bytes into an array of zeros. -/
def copyInto (n : Nat) (bytes : List UInt8) : Block n :=
  ⟨bytes.take (min bytes.length n) ++ List.replicate (n - min bytes.length n) 0, by
    rw [List.length_append, List.length_take, List.length_replicate]
    omega⟩

namespace AesHelper

variable (aes : Aes) (kypoAesKey : Option String)

def getKey : Block 32 := copyInto 32 (utf8Bytes (kypoAesKey.getD "").toList)

/-- `none` is an exception. -/
def decrypt (ciphertext : List Char) : Option (List Char) := do
  let raw ← Base64.decodePadded standardAlphabet '=' ItsDangerous.isBlank ciphertext
  if h : 16 ≤ raw.length then
    let iv : Block 16 := ⟨raw.take 16, by rw [List.length_take, Nat.min_eq_left h]⟩
    -- no blocks at all have no padding either
    if raw.length = 16 then some []
    else
      let padded ← cbcDecrypt (aes (getKey kypoAesKey)) iv (raw.drop 16)
      let plain ← unpad 16 padded
      some (getString plain)
  else none

def encrypt (iv : Block 16) (plaintext : List Char) : Option (List Char) := do
  let ct ← cbcEncrypt (aes (getKey kypoAesKey)) iv (pad 16 (utf8Bytes plaintext))
  some (Base64.encodePadded standardAlphabet '=' (iv.1 ++ ct))

end AesHelper

/-! ### Python -/

section Python

variable (aes : Aes) (kypoAesKey : Option String)

/-- `key[:n] = raw[:n]`, on as many zeros as the key has bytes. -/
def getKey : Block 32 :=
  let raw := utf8Bytes (kypoAesKey.getD "").toList
  let key : List UInt8 := List.replicate 32 0
  ⟨raw.take (min raw.length 32) ++ key.drop (min raw.length 32), by
    rw [List.length_append, List.length_take, List.length_drop, List.length_replicate]
    omega⟩

def encryptKypoPassword (iv : Block 16) (plaintext : List Char) : Option (List Char) := do
  let data := utf8Bytes plaintext
  let padLen := 16 - data.length % 16
  let data := data ++ List.replicate padLen (UInt8.ofNat padLen)
  let ct ← cbcEncrypt (aes (getKey kypoAesKey)) iv data
  some (Base64.encodePadded standardAlphabet '=' (iv.1 ++ ct))

/-- `data[:-n]`, which is empty for 0. -/
def dropLast (n : Nat) (data : List UInt8) : List UInt8 :=
  if n = 0 then [] else data.take (data.length - n)

/-- Without the `except`. -/
def tryDecrypt (ciphertext : List Char) : Option (List Char) := do
  let raw ← if InviteCode.isAscii ciphertext then
    Base64.decodeSkipping standardAlphabet '=' ciphertext else none
  if h : 16 ≤ raw.length then
    let iv : Block 16 := ⟨raw.take 16, by rw [List.length_take, Nat.min_eq_left h]⟩
    let data ← cbcDecrypt (aes (getKey kypoAesKey)) iv (raw.drop 16)
    let padLen ← data.getLast?
    InviteCode.decodeUtf8Strict (dropLast padLen.toNat data)
  else none

/-- What cannot be decrypted is returned as it is. -/
def decryptKypoPassword (ciphertext : List Char) : List Char :=
  (tryDecrypt aes kypoAesKey ciphertext).getD ciphertext

end Python

/-! ### The two sides agree -/

section RoundTrip

variable (aes : Aes) (kypoAesKey : Option String)

theorem getKey_eq : getKey kypoAesKey = AesHelper.getKey kypoAesKey := by
  apply Subtype.ext
  simp only [getKey, AesHelper.getKey, copyInto, List.drop_replicate]

theorem encrypt_eq (iv : Block 16) (plaintext : List Char) :
    encryptKypoPassword aes kypoAesKey iv plaintext =
      AesHelper.encrypt aes kypoAesKey iv plaintext := by
  rw [encryptKypoPassword, AesHelper.encrypt, getKey_eq]
  rfl

/-- A character takes one turn, and there are at least as many bytes as characters. -/
theorem getStringFrom_utf8Bytes (text : List Char) {turns : Nat} (h : text.length ≤ turns) :
    getStringFrom turns (utf8Bytes text) = text := by
  induction text generalizing turns with
  | nil => cases turns <;> rfl
  | cons c text ih =>
    obtain ⟨turns, rfl⟩ : ∃ k, turns = k + 1 :=
      Nat.exists_eq_succ_of_ne_zero (Nat.ne_of_gt (Nat.lt_of_lt_of_le (Nat.succ_pos _) h))
    have hbytes : utf8Bytes (c :: text) = String.utf8EncodeChar c ++ utf8Bytes text := rfl
    have hempty : (utf8Bytes (c :: text)).isEmpty = false := by
      rw [hbytes, List.isEmpty_eq_false_iff]
      exact fun hnil => String.utf8EncodeChar_ne_nil (List.append_eq_nil_iff.mp hnil).1
    have hfirst : (utf8Bytes (c :: text)).toByteArray.utf8DecodeChar? 0 = some c := by
      have hsplit : (utf8Bytes (c :: text)).toByteArray =
          [c].utf8Encode ++ (utf8Bytes text).toByteArray := by
        rw [hbytes, List.utf8Encode_singleton, List.toByteArray_append]
      rw [hsplit, List.utf8DecodeChar?_utf8Encode_singleton_append]
    have hrest : (utf8Bytes (c :: text)).drop c.utf8Size = utf8Bytes text :=
      List.drop_left' (String.length_utf8EncodeChar c)
    simp only [getStringFrom, hempty, hfirst, hrest, ih (Nat.le_of_succ_le_succ h),
      Bool.false_eq_true, if_false]

theorem length_le_utf8Bytes (text : List Char) : text.length ≤ (utf8Bytes text).length := by
  induction text with
  | nil => exact Nat.le_refl 0
  | cons c text ih =>
    have hpos : 0 < (String.utf8EncodeChar c).length :=
      List.length_pos_of_ne_nil String.utf8EncodeChar_ne_nil
    have hbytes : utf8Bytes (c :: text) = String.utf8EncodeChar c ++ utf8Bytes text := rfl
    rw [hbytes, List.length_append, List.length_cons]
    omega

theorem getString_utf8Bytes (text : List Char) : getString (utf8Bytes text) = text :=
  getStringFrom_utf8Bytes text (length_le_utf8Bytes text)

/-- What either side writes: sixteen bytes and the blocks that they begin the chain of. -/
theorem encrypt_spec (iv : Block 16) (password : List Char) :
    ∃ ct, cbcDecrypt (aes (AesHelper.getKey kypoAesKey)) iv ct =
        some (pad 16 (utf8Bytes password)) ∧ ct ≠ [] ∧
      AesHelper.encrypt aes kypoAesKey iv password =
        some (Base64.encodePadded standardAlphabet '=' (iv.1 ++ ct)) := by
  have hwhole : 16 ∣ (pad 16 (utf8Bytes password)).length := dvd_length_pad (by decide) _
  obtain ⟨ct, hencrypt, hlength, hdecrypt⟩ :=
    cbc_roundTrip (by decide) (aes (AesHelper.getKey kypoAesKey)) iv hwhole
  refine ⟨ct, hdecrypt, ?_, ?_⟩
  · rintro rfl
    obtain ⟨count, hpos, -, heq⟩ := pad_eq (n := 16) (by decide) (by decide) (utf8Bytes password)
    rw [heq, List.length_append, List.length_replicate, List.length_nil] at hlength
    omega
  · rw [AesHelper.encrypt, hencrypt]
    rfl

/-- The parts of what is stored. -/
theorem stored_parts (iv : Block 16) {ct : List UInt8} (hct : ct ≠ []) :
    16 ≤ (iv.1 ++ ct).length ∧ (iv.1 ++ ct).length ≠ 16 ∧ (iv.1 ++ ct).take 16 = iv.1 ∧
      (iv.1 ++ ct).drop 16 = ct := by
  have hpos := List.length_pos_of_ne_nil hct
  refine ⟨?_, ?_, List.take_left' iv.2, List.drop_left' iv.2⟩ <;>
    rw [List.length_append, iv.2] <;> omega

theorem decrypt_stored (iv : Block 16) {ct : List UInt8} {password : List Char} (hct : ct ≠ [])
    (h : cbcDecrypt (aes (AesHelper.getKey kypoAesKey)) iv ct =
      some (pad 16 (utf8Bytes password))) :
    AesHelper.decrypt aes kypoAesKey
      (Base64.encodePadded standardAlphabet '=' (iv.1 ++ ct)) = some password := by
  obtain ⟨hle, hne, htake, hdrop⟩ := stored_parts iv hct
  have hraw : Base64.decodePadded standardAlphabet '=' ItsDangerous.isBlank
      (Base64.encodePadded standardAlphabet '=' (iv.1 ++ ct)) = some (iv.1 ++ ct) := by
    apply Base64.decodePadded_encodePadded (by decide) (by decide)
    intro c hc
    simp only [ItsDangerous.isBlank, Bool.or_eq_true, decide_eq_true_eq] at hc
    rcases hc with ((rfl | rfl) | rfl) | rfl <;> decide
  have hiv : (⟨(iv.1 ++ ct).take 16, by rw [htake, iv.2]⟩ : Block 16) = iv :=
    Subtype.ext htake
  simp only [AesHelper.decrypt, hraw, Option.bind_eq_bind, Option.bind_some, dif_pos hle,
    if_neg hne, hiv, hdrop, h]
  rw [unpad_pad (by decide) (by decide), Option.bind_some, getString_utf8Bytes]

theorem dropLast_pad (bytes : List UInt8) :
    ∃ last, (pad 16 bytes).getLast? = some last ∧
      dropLast last.toNat (pad 16 bytes) = bytes := by
  obtain ⟨count, hpos, -, heq⟩ := pad_eq (n := 16) (by decide) (by decide) bytes
  rw [heq]
  refine ⟨count, getLast?_padded hpos bytes, ?_⟩
  rw [dropLast, if_neg (by omega), take_padded]

theorem isAscii_encodePadded (bytes : List UInt8) :
    InviteCode.isAscii (Base64.encodePadded standardAlphabet '=' bytes) = true := by
  have hchars : ∀ n < 64, (standardAlphabet.char n).toNat < 0x80 := by decide
  rw [InviteCode.isAscii, List.all_eq_true]
  intro c hc
  rcases List.mem_append.mp hc with hc | hc
  · obtain ⟨n, hn, rfl⟩ := Base64.mem_encode hc
    exact decide_eq_true (hchars n hn)
  · rw [List.eq_of_mem_replicate hc]
    rfl

theorem decodeSkipping_encodePadded (bytes : List UInt8) :
    Base64.decodeSkipping standardAlphabet '='
      (Base64.encodePadded standardAlphabet '=' bytes) = some bytes := by
  have hpads : (3 - bytes.length % 3) % 3 =
      (4 - (Base64.encode standardAlphabet bytes).length % 4) % 4 := by
    rw [Base64.length_encode]
    have hrest : bytes.length % 3 = 0 ∨ bytes.length % 3 = 1 ∨ bytes.length % 3 = 2 := by omega
    rcases hrest with hrest | hrest | hrest <;> rw [hrest] <;> omega
  rw [Base64.encodePadded, hpads]
  exact Base64.decodeSkipping_encode (by decide) bytes

theorem decryptKypoPassword_stored (iv : Block 16) {ct : List UInt8} {password : List Char}
    (hct : ct ≠ [])
    (h : cbcDecrypt (aes (AesHelper.getKey kypoAesKey)) iv ct =
      some (pad 16 (utf8Bytes password))) :
    decryptKypoPassword aes kypoAesKey
      (Base64.encodePadded standardAlphabet '=' (iv.1 ++ ct)) = password := by
  obtain ⟨hle, -, htake, hdrop⟩ := stored_parts iv hct
  obtain ⟨last, hlast, hdata⟩ := dropLast_pad (utf8Bytes password)
  have hiv : (⟨(iv.1 ++ ct).take 16, by rw [htake, iv.2]⟩ : Block 16) = iv :=
    Subtype.ext htake
  simp only [decryptKypoPassword, tryDecrypt, isAscii_encodePadded, if_true,
    decodeSkipping_encodePadded, Option.bind_eq_bind, Option.bind_some, dif_pos hle, hiv, hdrop,
    getKey_eq, h, hlast, hdata, InviteCode.decodeUtf8Strict_utf8Bytes, Option.getD_some]

/-- Either side reads what either side has written, with any initial vector. -/
theorem password_roundTrip (iv : Block 16) (password : List Char) :
    (encryptKypoPassword aes kypoAesKey iv password).bind (AesHelper.decrypt aes kypoAesKey) =
        some password ∧
      (AesHelper.encrypt aes kypoAesKey iv password).map (decryptKypoPassword aes kypoAesKey) =
        some password ∧
      (AesHelper.encrypt aes kypoAesKey iv password).bind (AesHelper.decrypt aes kypoAesKey) =
        some password ∧
      (encryptKypoPassword aes kypoAesKey iv password).map
        (decryptKypoPassword aes kypoAesKey) = some password := by
  obtain ⟨ct, hchain, hct, hencrypt⟩ := encrypt_spec aes kypoAesKey iv password
  have hsharp := decrypt_stored aes kypoAesKey iv hct hchain
  have hpython := decryptKypoPassword_stored aes kypoAesKey iv hct hchain
  rw [encrypt_eq, hencrypt, Option.bind_some, Option.map_some, hsharp, hpython]
  exact ⟨rfl, rfl, rfl, rfl⟩

end RoundTrip

end Fctf.Kypo
