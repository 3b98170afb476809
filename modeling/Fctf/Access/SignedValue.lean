import Fctf.Gateway.Token

/-!
Signed values with a time, as the Python library itsdangerous writes them: the tokens of files.
`ItsDangerousCompatHelper` writes them anew in C#.
-/

namespace Fctf.ItsDangerous

/-- The hash and the MAC of .NET. -/
structure Crypto where
  sha1 : List UInt8 → List UInt8
  hmacSha1 : List UInt8 → List UInt8 → List UInt8
  /-- Keys that are hashes of different bytes do not give a text the same MAC. -/
  hash_unique : ∀ a b message, hmacSha1 (sha1 a) message = hmacSha1 (sha1 b) message → a = b

/-! ### Encodings -/

/-- The cast of a number of type `long`. -/
def unixNow (seconds : Int) : Int32 := Int32.ofInt seconds

def b64Url (bytes : List UInt8) : List Char := base64UrlEncode bytes

/-- The white space that `Convert.FromBase64String` passes over. -/
def isBlank (c : Char) : Bool := c = ' ' || c = '\t' || c = '\n' || c = '\r'

def b64UrlDecode (s : List Char) : Option (List UInt8) :=
  let s := (s.map fun c => if c = '-' then '+' else c).map fun c => if c = '_' then '/' else c
  let padding :=
    if s.length % 4 = 2 then ['=', '='] else if s.length % 4 = 3 then ['='] else []
  Base64.decodePadded standardAlphabet '=' isBlank (s ++ padding)

/-- The loop that fills a buffer from its end; `room` is what is left of it. -/
def fillBE : Nat → Nat → List UInt8 → List UInt8
  | 0, _, tmp => tmp
  | room + 1, n, tmp => if 0 < n then fillBE room (n / 256) (UInt8.ofNat n :: tmp) else tmp

def intToBytesBE (n : Int32) : List UInt8 :=
  if n = 0 then [0] else fillBE 8 n.toInt.toNat []

/-- The time of a token from its bytes. -/
def intOfBytes (bytes : List UInt8) : Int32 :=
  bytes.foldl (fun ts b => (ts <<< (8 : Int32)) ||| Int32.ofNat b.toNat) 0

/-- `Encoding.ASCII.GetBytes`: every other character is a question mark. -/
def asciiBytes (text : List Char) : List UInt8 :=
  text.map fun c => if c.toNat < 0x80 then UInt8.ofNat c.toNat else 0x3F

/-! ### Signing -/

namespace Crypto

variable (c : Crypto)

/-- django-concat. -/
def deriveKey (secret salt : List UInt8) : List UInt8 :=
  c.sha1 (salt ++ utf8Bytes "signer".toList ++ secret)

/-- The last part of a token. -/
def signature (secret salt : String) (valueWithTs : List Char) : List Char :=
  b64Url (c.hmacSha1 (c.deriveKey (utf8Bytes secret.toList) (utf8Bytes salt.toList))
    (utf8Bytes valueWithTs))

def timestampSign (now : Int) (value secret salt : String) (sep : Char) : String :=
  let tsPart := b64Url (intToBytesBE (unixNow now))
  let valueWithTs := value.toList ++ sep :: tsPart
  String.ofList (valueWithTs ++ sep :: c.signature secret salt valueWithTs)

/-- What `TimestampUnsign` does with the parts of a token. -/
def unsignParts (now : Int) (value tsB64 sigB64 : List Char) (secret : String)
    (maxAgeSeconds : Option Int32) (salt : String) (sep : Char) : Except String String :=
  let expect := c.signature secret salt (value ++ sep :: tsB64)
  if asciiBytes sigB64 ≠ asciiBytes expect then .error "BadSignature"
  else
    match b64UrlDecode tsB64 with
    | none => .error "The input is not a valid Base-64 string"
    | some tsBytes =>
      match maxAgeSeconds with
      | none => .ok (String.ofList value)
      | some maxAge =>
        let age := unixNow now - intOfBytes tsBytes
        if maxAge < age then
          .error ("SignatureExpired: age " ++ toString age.toInt ++ " > " ++
            toString maxAge.toInt)
        else .ok (String.ofList value)

def timestampUnsign (now : Int) (token secret : String) (maxAgeSeconds : Option Int32)
    (salt : String) (sep : Char) : Except String String :=
  match (token.toList.splitOn sep).reverse with
  | sigB64 :: tsB64 :: part :: parts =>
    c.unsignParts now ([sep].intercalate (part :: parts).reverse) tsB64 sigB64 secret maxAgeSeconds
      salt sep
  | _ => .error "timestamp missing"

end Crypto

/-! ### What is encoded is decoded -/

theorem unreplace_char : ∀ n < 64,
    (fun c => if c = '_' then '/' else c)
      ((fun c => if c = '-' then '+' else c) (urlAlphabet.char n)) = standardAlphabet.char n := by
  decide

theorem b64UrlDecode_b64Url (bytes : List UInt8) : b64UrlDecode (b64Url bytes) = some bytes := by
  have hchars : ((b64Url bytes).map fun c => if c = '-' then '+' else c).map
      (fun c => if c = '_' then '/' else c) = Base64.encode standardAlphabet bytes := by
    rw [b64Url, base64UrlEncode_eq, List.map_map]
    exact Base64.map_encode unreplace_char bytes
  have hpadding : (if (Base64.encode standardAlphabet bytes).length % 4 = 2 then ['=', '=']
      else if (Base64.encode standardAlphabet bytes).length % 4 = 3 then ['='] else []) =
        List.replicate ((3 - bytes.length % 3) % 3) '=' := by
    rw [Base64.length_encode]
    have hrest : bytes.length % 3 = 0 ∨ bytes.length % 3 = 1 ∨ bytes.length % 3 = 2 := by omega
    rcases hrest with hrest | hrest | hrest
    · have hlast : (bytes.length * 4 + 2) / 3 % 4 = 0 := by omega
      rw [hlast, hrest]
      rfl
    · have hlast : (bytes.length * 4 + 2) / 3 % 4 = 2 := by omega
      rw [hlast, hrest]
      rfl
    · have hlast : (bytes.length * 4 + 2) / 3 % 4 = 3 := by omega
      rw [hlast, hrest]
      rfl
  rw [b64UrlDecode, hchars, hpadding]
  apply Base64.decodePadded_encodePadded (by decide) (by decide)
  intro c hc
  simp only [isBlank, Bool.or_eq_true, decide_eq_true_eq] at hc
  rcases hc with ((rfl | rfl) | rfl) | rfl <;> decide

/-- The number that bytes are, after `start`. -/
def valueBE (start : Nat) (bytes : List UInt8) : Nat :=
  bytes.foldl (fun n b => n * 256 + b.toNat) start

theorem valueBE_fillBE (room n : Nat) (tmp : List UInt8) (h : n < 256 ^ room) :
    valueBE 0 (fillBE room n tmp) = valueBE n tmp := by
  induction room generalizing n tmp with
  | zero =>
    have hzero : n = 0 := by omega
    rw [fillBE, hzero]
  | succ room ih =>
    rw [fillBE]
    split_ifs with hpos
    · have hbyte : (UInt8.ofNat n).toNat = n % 256 := by simp
      rw [ih (n / 256) _ (by rw [Nat.pow_succ] at h; omega)]
      simp only [valueBE, List.foldl_cons, hbyte]
      congr 1
      omega
    · have hzero : n = 0 := by omega
      rw [hzero]

/-- One byte of a number of type `int`, which keeps its low bits. -/
theorem shift_or (n : Nat) (b : UInt8) :
    (Int32.ofNat n <<< (8 : Int32)) ||| Int32.ofNat b.toNat = Int32.ofNat (n * 256 + b.toNat) := by
  have hb := b.toNat_lt
  have hlow : n * 256 % 2 ^ 32 = 2 ^ 8 * (n % 2 ^ 24) := by omega
  have hor : 2 ^ 8 * (n % 2 ^ 24) ||| b.toNat = 2 ^ 8 * (n % 2 ^ 24) + b.toNat :=
    (Nat.two_pow_add_eq_or_of_lt hb _).symm
  have hshift : (Int32.ofNat n <<< (8 : Int32)).toBitVec.toNat = n * 256 % 2 ^ 32 := by
    have h8 : (8 : Int32).toBitVec.smod 32 = 8#32 := by decide
    rw [Int32.toBitVec_shiftLeft, h8]
    simp [Nat.shiftLeft_eq]
  have hbyte : (Int32.ofNat b.toNat).toBitVec.toNat = b.toNat := by simp
  apply Int32.toBitVec_inj.mp
  apply BitVec.eq_of_toNat_eq
  rw [Int32.toBitVec_or, BitVec.toNat_or, hshift, hlow, hbyte, hor]
  simp
  omega

theorem intOfBytes_eq (bytes : List UInt8) : intOfBytes bytes = Int32.ofNat (valueBE 0 bytes) := by
  have hfold : ∀ start : Nat, bytes.foldl
      (fun ts b => (ts <<< (8 : Int32)) ||| Int32.ofNat b.toNat) (Int32.ofNat start) =
        Int32.ofNat (valueBE start bytes) := by
    induction bytes with
    | nil => exact fun _ => rfl
    | cons b bytes ih =>
      intro start
      rw [List.foldl_cons, shift_or]
      exact ih _
  exact hfold 0

theorem intOfBytes_intToBytesBE (n : Int32) (h : 0 ≤ n.toInt) :
    intOfBytes (intToBytesBE n) = n := by
  have hlt := n.toInt_lt
  rw [intToBytesBE]
  split_ifs with hzero
  · rw [hzero]
    decide
  · rw [intOfBytes_eq, valueBE_fillBE 8 n.toInt.toNat [] (by omega)]
    apply Int32.toInt_inj.mp
    rw [valueBE, List.foldl_nil, Int32.toInt_ofNat_of_lt (by omega)]
    omega

/-! ### What is signed is accepted -/

theorem asciiBytes_eq {text : List Char} (h : ∀ c ∈ text, c.toNat < 0x80) :
    asciiBytes text = utf8Bytes text := by
  induction text with
  | nil => rfl
  | cons c text ih =>
    have hc : c.toNat < 0x80 := h c List.mem_cons_self
    have hrest := ih fun d hd => h d (List.mem_cons_of_mem _ hd)
    rw [asciiBytes, List.map_cons, if_pos hc, utf8Bytes, List.flatMap_cons, utf8EncodeChar_ascii hc]
    exact congrArg _ hrest

/-- The comparison of signatures tells the bytes apart. -/
theorem asciiBytes_b64Url_inj {a b : List UInt8}
    (h : asciiBytes (b64Url a) = asciiBytes (b64Url b)) : a = b := by
  have htext : b64Url a = b64Url b := by
    have ha : asciiBytes (b64Url a) = utf8Bytes (b64Url a) :=
      asciiBytes_eq (base64UrlEncode_ascii a)
    have hb : asciiBytes (b64Url b) = utf8Bytes (b64Url b) :=
      asciiBytes_eq (base64UrlEncode_ascii b)
    exact utf8Bytes_inj (ha.symm.trans (h.trans hb))
  have hdecode := congrArg b64UrlDecode htext
  rw [b64UrlDecode_b64Url, b64UrlDecode_b64Url] at hdecode
  exact Option.some.inj hdecode

namespace Crypto

variable (c : Crypto)

/-- A value may have separators, its time and its signature have none. -/
theorem timestampUnsign_parts (now : Int) (value tsB64 sigB64 : List Char) (secret salt : String)
    (maxAge : Option Int32) (hts : '.' ∉ tsB64) (hsig : '.' ∉ sigB64) :
    c.timestampUnsign now (String.ofList (value ++ '.' :: tsB64 ++ '.' :: sigB64)) secret maxAge
      salt '.' = c.unsignParts now value tsB64 sigB64 secret maxAge salt '.' := by
  have hsplit : (value ++ '.' :: tsB64 ++ '.' :: sigB64).splitOn '.' =
      value.splitOn '.' ++ [tsB64, sigB64] := by
    rw [List.append_assoc, List.cons_append, List.splitOn_append_cons_self,
      List.splitOn_append_cons_self_of_not_mem hts, List.splitOn_eq_singleton hsig]
  have hreverse : (value.splitOn '.' ++ [tsB64, sigB64]).reverse =
      sigB64 :: tsB64 :: (value.splitOn '.').reverse := by simp
  obtain ⟨part, parts, hparts⟩ := List.exists_cons_of_ne_nil
    (mt List.reverse_eq_nil_iff.mp (List.splitOn_ne_nil '.' value))
  rw [timestampUnsign, String.toList_ofList, hsplit, hreverse, hparts]
  have hvalue : ['.'].intercalate (part :: parts).reverse = value := by
    rw [← hparts, List.reverse_reverse, List.intercalate_splitOn]
  exact congrArg (fun v => c.unsignParts now v tsB64 sigB64 secret maxAge salt '.') hvalue

/-- What becomes of a token that `timestampSign` has made, under any secret and salt. -/
theorem timestampUnsign_timestampSign (t now : Int) (value secret salt secret' salt' : String)
    (maxAge : Option Int32) :
    c.timestampUnsign now (c.timestampSign t value secret salt '.') secret' maxAge salt' '.' =
      c.unsignParts now value.toList (b64Url (intToBytesBE (unixNow t)))
        (c.signature secret salt (value.toList ++ '.' :: b64Url (intToBytesBE (unixNow t))))
        secret' maxAge salt' '.' :=
  c.timestampUnsign_parts now _ _ _ _ _ _ (dot_notMem_base64UrlEncode _)
    (dot_notMem_base64UrlEncode _)

/-- Two signatures of a text are told apart unless their keys are hashes of the same bytes. -/
theorem signature_inj {secret salt secret' salt' : String} {text : List Char}
    (h : asciiBytes (c.signature secret salt text) = asciiBytes (c.signature secret' salt' text)) :
    salt ++ "signer" ++ secret = salt' ++ "signer" ++ secret' := by
  have hbytes := c.hash_unique _ _ _ (asciiBytes_b64Url_inj h)
  simp only [utf8Bytes, ← List.flatMap_append] at hbytes
  have hlist := utf8Bytes_inj hbytes
  apply String.toList_inj.mp
  simpa only [String.toList_append] using hlist

theorem unixNow_toInt {t : Int} (h : 0 ≤ t ∧ t < 2 ^ 31) : (unixNow t).toInt = t :=
  Int32.toInt_ofInt_of_le (by omega) h.2

/-- The age, when it is within the range of its type; the clock may have left that range. -/
theorem age_toInt {t now : Int} (hlow : -2 ^ 31 ≤ now - t) (hhigh : now - t < 2 ^ 31) :
    (unixNow now - unixNow t).toInt = now - t := by
  rw [unixNow, unixNow, ← Int32.ofInt_sub]
  exact Int32.toInt_ofInt_of_le hlow hhigh

/-- A value that is signed at `t` comes back from its token as long as the age allows it, and not
afterwards, and not with another key; and the encodings lose nothing. -/
theorem signed_value_compatible (value secret salt : String) (t : Int) (ht : 0 ≤ t ∧ t < 2 ^ 31) :
    (∀ (now : Int) (maxAge : Option Int32),
      ((∀ m ∈ maxAge, -2 ^ 31 ≤ now - t ∧ now - t ≤ m.toInt) →
        c.timestampUnsign now (c.timestampSign t value secret salt '.') secret maxAge salt '.' =
          .ok value) ∧
      (∀ m ∈ maxAge, m.toInt < now - t → now - t < 2 ^ 31 →
        c.timestampUnsign now (c.timestampSign t value secret salt '.') secret maxAge salt '.' =
          .error ("SignatureExpired: age " ++ toString (now - t) ++ " > " ++
            toString m.toInt))) ∧
    (∀ (now : Int) (maxAge : Option Int32) (secret' salt' : String),
      salt' ++ "signer" ++ secret' ≠ salt ++ "signer" ++ secret →
        c.timestampUnsign now (c.timestampSign t value secret salt '.') secret' maxAge salt' '.' =
          .error "BadSignature") ∧
    (∀ bytes, b64UrlDecode (b64Url bytes) = some bytes) ∧
    (∀ n : Int32, 0 ≤ n.toInt → intOfBytes (intToBytesBE n) = n) := by
  have hts : intOfBytes (intToBytesBE (unixNow t)) = unixNow t :=
    intOfBytes_intToBytesBE _ (by rw [unixNow_toInt ht]; exact ht.1)
  refine ⟨fun now maxAge => ⟨fun hage => ?_, fun m hm hage hrange => ?_⟩,
    fun now maxAge secret' salt' hkey => ?_, b64UrlDecode_b64Url, intOfBytes_intToBytesBE⟩
  · rw [timestampUnsign_timestampSign, unsignParts, if_neg (by simp), b64UrlDecode_b64Url]
    cases maxAge with
    | none => simp
    | some m =>
      obtain ⟨hlow, hage⟩ := hage m rfl
      have hyoung : ¬ m < unixNow now - unixNow t := by
        rw [Int32.lt_iff_toInt_lt, age_toInt hlow (hage.trans_lt m.toInt_lt), Int.not_lt]
        exact hage
      simp only [hts, if_neg hyoung, String.ofList_toList]
  · obtain rfl := Option.mem_def.mp hm
    have hlow : -2 ^ 31 ≤ now - t := m.le_toInt.trans hage.le
    have hold : m < unixNow now - unixNow t := by
      rw [Int32.lt_iff_toInt_lt, age_toInt hlow hrange]
      exact hage
    rw [timestampUnsign_timestampSign, unsignParts, if_neg (by simp), b64UrlDecode_b64Url]
    simp only [hts, if_pos hold, age_toInt hlow hrange]
  · rw [timestampUnsign_timestampSign, unsignParts, if_pos]
    exact fun hsame => hkey (c.signature_inj hsame).symm

/-- A hash and a MAC that keep everything. -/
def transparent : Crypto where
  sha1 := id
  hmacSha1 key message := key ++ message
  hash_unique _ _ _ := List.append_cancel_right

theorem signed_value_compatible_now :
    transparent.timestampUnsign 1767225660
      (transparent.timestampSign 1767225600 "files/ü.zip" "key" "itsdangerous" '.') "key" (some 60)
      "itsdangerous" '.' = .ok "files/ü.zip" :=
  ((transparent.signed_value_compatible "files/ü.zip" "key" "itsdangerous" 1767225600
    (by decide)).1 1767225660 (some 60)).1 (by simp)

/-- Another secret and another salt that are the same when they stand around the tag. -/
theorem accepted_with_other_salt : ¬ ∀ (c : Crypto) (value secret salt : String) (t now : Int)
    (maxAge : Option Int32) (secret' salt' : String), (secret', salt') ≠ (secret, salt) →
    ∃ message, c.timestampUnsign now (c.timestampSign t value secret salt '.') secret' maxAge salt'
      '.' = .error message := by
  intro hall
  obtain ⟨message, herror⟩ := hall transparent "v" "signerk" "" 0 0 none "k" "signer" (by decide)
  rw [timestampUnsign_timestampSign, unsignParts, if_neg, b64UrlDecode_b64Url] at herror
  · cases herror
  · exact not_not.mpr (by decide)

end Crypto

end Fctf.ItsDangerous
