import Std.Data.String.ToInt
import Mathlib.Data.List.DropRight
import Fctf.Deploy.Data
import Fctf.Lib.Base64
import Fctf.JsonText

/-!
The text of a challenge token. `ChallengeHelper.GenerateChallengeToken` writes it in C#, the
gateway's `Verify` reads it in Go; the two agree by way of JSON, Base64 and the HMAC only.
-/

namespace Fctf

/-! ### What both languages have -/

def standardChar (n : Nat) : Char :=
  if n < 26 then Char.ofNat (65 + n)
  else if n < 52 then Char.ofNat (71 + n)
  else if n < 62 then Char.ofNat (n - 4)
  else if n = 62 then '+' else '/'

def alnumValue (c : Char) : Option Nat :=
  if 65 ≤ c.toNat ∧ c.toNat ≤ 90 then some (c.toNat - 65)
  else if 97 ≤ c.toNat ∧ c.toNat ≤ 122 then some (c.toNat - 71)
  else if 48 ≤ c.toNat ∧ c.toNat ≤ 57 then some (c.toNat + 4)
  else none

/-- The alphabet of `Convert.ToBase64String`. -/
def standardAlphabet : Base64.Alphabet where
  char := standardChar
  value c := if c = '+' then some 62 else if c = '/' then some 63 else alnumValue c
  value_char := by decide

def replaceChar (c : Char) : Char := if c = '+' then '-' else if c = '/' then '_' else c

/-- The alphabet of `base64.RawURLEncoding`. -/
def urlAlphabet : Base64.Alphabet where
  char n := replaceChar (standardChar n)
  value c := if c = '-' then some 62 else if c = '_' then some 63 else alnumValue c
  value_char := by decide

def utf8Bytes (text : List Char) : List UInt8 := text.flatMap String.utf8EncodeChar

/-- What the two programs are given: the key, the MAC, and Go's format for times. -/
structure TokenPlatform where
  privateKey : String
  hmac : List UInt8 → List UInt8 → List UInt8
  format : Int → String

/-! ### Writing, in C# -/

/-- The characters that `JavaScriptEncoder.Default` leaves as they are: printable ASCII without
those that mean something in HTML. -/
def isPlainChar (c : Char) : Bool :=
  let n := c.toNat
  0x20 ≤ n && n ≤ 0x7E && n ≠ 0x22 && n ≠ 0x26 && n ≠ 0x27 && n ≠ 0x2B && n ≠ 0x3C && n ≠ 0x3E &&
    n ≠ 0x5C && n ≠ 0x60

def shortName (c : Char) : Option Char :=
  if c.toNat = 8 then some 'b'
  else if c.toNat = 9 then some 't'
  else if c.toNat = 10 then some 'n'
  else if c.toNat = 12 then some 'f'
  else if c.toNat = 13 then some 'r'
  else if c.toNat = 0x5C then some '\\'
  else none

/-- `JavaScriptEncoder.Default`, which `JsonSerializer` uses. -/
def javaScriptEncoder : Json.Encoder where
  isPlain := isPlainChar
  short := shortName
  plain_ok c h := by
    simp only [isPlainChar, Bool.and_eq_true, decide_eq_true_eq] at h
    refine ⟨?_, ?_, by omega⟩
    · rintro rfl
      exact absurd h (by decide)
    · rintro rfl
      exact absurd h (by decide)
  short_ok c e h := by
    unfold shortName at h
    split_ifs at h with h8 h9 h10 h12 h13 h92 <;> obtain rfl := Option.some.inj h
    · exact ⟨by decide, congrArg some (char_of_toNat h8).symm⟩
    · exact ⟨by decide, congrArg some (char_of_toNat h9).symm⟩
    · exact ⟨by decide, congrArg some (char_of_toNat h10).symm⟩
    · exact ⟨by decide, congrArg some (char_of_toNat h12).symm⟩
    · exact ⟨by decide, congrArg some (char_of_toNat h13).symm⟩
    · exact ⟨by decide, congrArg some (char_of_toNat h92).symm⟩

/-- `DateTimeOffset.ToUnixTimeSeconds`, from the year 1 to the year 9999. -/
structure DateTimeOffset where
  toUnixTimeSeconds : Int
  range : -62135596800 ≤ toUnixTimeSeconds ∧ toUnixTimeSeconds ≤ 253402300799

/-- `JsonSerializer.Serialize`. -/
def Payload.serialize (p : Payload) : List Char :=
  '{' :: javaScriptEncoder.writeMember "exp".toList p.exp.repr.toList
    (',' :: javaScriptEncoder.writeMember "route".toList
      (javaScriptEncoder.writeString p.route.toList)
      (',' :: javaScriptEncoder.writeMember "deployment_key".toList
        (javaScriptEncoder.writeString p.deployment_key.toList) ['}']))

def base64UrlEncode (data : List UInt8) : List Char :=
  ((Base64.encodePadded standardAlphabet '=' data).map replaceChar).rdropWhile fun c => c = '='

namespace TokenPlatform

variable (platform : TokenPlatform)

/-- `GenerateChallengeToken`; a key of white space only throws. -/
def generateChallengeToken (routeInfo : String) (expiryUtc : DateTimeOffset)
    (deploymentKey : String) : Except String String :=
  if isNullOrWhiteSpace platform.privateKey then .error "Missing PRIVATE_KEY"
  else
    let payload : Payload := ⟨expiryUtc.toUnixTimeSeconds, routeInfo, deploymentKey⟩
    let payloadB64 := base64UrlEncode (utf8Bytes payload.serialize)
    let signature := platform.hmac (utf8Bytes platform.privateKey.toList) (utf8Bytes payloadB64)
    .ok (String.ofList (payloadB64 ++ '.' :: base64UrlEncode signature))

end TokenPlatform

/-! ### Reading, in Go -/

def isTail (b : UInt8) (low high : Nat) : Bool := low ≤ b.toNat && b.toNat ≤ high

/-- The range of the second byte after a first byte, and the number of bytes. -/
def firstByte (b : UInt8) : Option (Nat × Nat × Nat) :=
  let n := b.toNat
  if 0xC2 ≤ n ∧ n ≤ 0xDF then some (2, 0x80, 0xBF)
  else if n = 0xE0 then some (3, 0xA0, 0xBF)
  else if n = 0xED then some (3, 0x80, 0x9F)
  else if 0xE1 ≤ n ∧ n ≤ 0xEF then some (3, 0x80, 0xBF)
  else if n = 0xF0 then some (4, 0x90, 0xBF)
  else if 0xF1 ≤ n ∧ n ≤ 0xF3 then some (4, 0x80, 0xBF)
  else if n = 0xF4 then some (4, 0x80, 0x8F)
  else none

/-- The characters of a text of Go: a byte that fits nowhere is the replacement character. -/
def decodeUtf8 : List UInt8 → List Char
  | [] => []
  | a :: rest =>
    if a.toNat < 0x80 then Char.ofNat a.toNat :: decodeUtf8 rest
    else
      match firstByte a, rest with
      | some (2, low, high), b :: after =>
        if isTail b low high then
          Char.ofNat (a.toNat % 32 * 64 + b.toNat % 64) :: decodeUtf8 after
        else Json.replacement :: decodeUtf8 (b :: after)
      | some (3, low, high), b :: c :: after =>
        if isTail b low high && isTail c 0x80 0xBF then
          Char.ofNat (a.toNat % 16 * 4096 + b.toNat % 64 * 64 + c.toNat % 64) :: decodeUtf8 after
        else Json.replacement :: decodeUtf8 (b :: c :: after)
      | some (4, low, high), b :: c :: d :: after =>
        if isTail b low high && isTail c 0x80 0xBF && isTail d 0x80 0xBF then
          Char.ofNat (a.toNat % 8 * 262144 + b.toNat % 64 * 4096 + c.toNat % 64 * 64 +
            d.toNat % 64) :: decodeUtf8 after
        else Json.replacement :: decodeUtf8 (b :: c :: d :: after)
      | _, rest => Json.replacement :: decodeUtf8 rest

/-- `foldRune`, on the characters that are equal to an ASCII one under simple folding. -/
def foldRune (c : Char) : Char :=
  if c.toNat = 0x17F then 'S' else if c.toNat = 0x212A then 'K' else c.toUpper

def foldName (name : List Char) : List Char := name.map foldRune

/-- `strconv.ParseInt` on a JSON number. -/
def parseInt (literal : List Char) : Option Int :=
  (String.ofList literal).toInt?.filter fun n => -(2 ^ 63) ≤ n && n < 2 ^ 63

/-- One member of the object; a value of another type is an error, `null` changes nothing. -/
def Payload.setMember (p : Payload) (member : List Char × Json.Tree) : Option Payload :=
  if foldName member.1 = foldName "exp".toList then
    match member.2 with
    | .number literal => (parseInt literal).map fun exp => { p with exp := exp }
    | .null => some p
    | _ => none
  else if foldName member.1 = foldName "route".toList then
    match member.2 with
    | .string s => some { p with route := String.ofList s }
    | .null => some p
    | _ => none
  else if foldName member.1 = foldName "deployment_key".toList then
    match member.2 with
    | .string s => some { p with deployment_key := String.ofList s }
    | .null => some p
    | _ => none
  else some p

/-- `json.Unmarshal` into a `Payload`. -/
def Payload.unmarshal (data : List UInt8) : Option Payload :=
  match Json.read 10000 (decodeUtf8 data) with
  | some (.object members) => members.foldlM setMember ⟨0, "", ""⟩
  | some .null => some ⟨0, "", ""⟩
  | _ => none

namespace TokenPlatform

variable (platform : TokenPlatform)

/-- `Verify`, at time `now`. -/
def verify (now : Int) (token : String) : Except String Payload :=
  match token.toList.splitOn '.' with
  | [payloadB64, sigB64] =>
    if isNullOrWhiteSpace platform.privateKey then .error "missing PRIVATE_KEY"
    else
      match Base64.decode urlAlphabet sigB64 with
      | none => .error "invalid signature encoding"
      | some sigBytes =>
        if sigBytes ≠ platform.hmac (utf8Bytes platform.privateKey.toList) (utf8Bytes payloadB64)
        then .error "invalid token signature"
        else
          match Base64.decode urlAlphabet payloadB64 with
          | none => .error "invalid payload encoding"
          | some payloadBytes =>
            match Payload.unmarshal payloadBytes with
            | none => .error "invalid payload json"
            | some payload =>
              if payload.exp ≤ 0 ∨ payload.route = "" then .error "invalid payload content"
              else if payload.exp ≤ now then
                .error ("token expired (Exp: " ++ platform.format payload.exp ++ ", Server: " ++
                  platform.format now ++ ")")
              else .ok payload
  | _ => .error "invalid token format"

end TokenPlatform

/-! ### Base64 -/

theorem urlChar_ne : ∀ n < 64, urlAlphabet.char n ≠ '=' ∧ urlAlphabet.char n ≠ '.' := by decide

theorem not_mem_encode {c : Char} (h : ∀ n < 64, urlAlphabet.char n ≠ c) (data : List UInt8) :
    c ∉ Base64.encode urlAlphabet data := by
  intro hmem
  obtain ⟨n, hn, rfl⟩ := Base64.mem_encode hmem
  exact h n hn rfl

/-- What the C# code makes of the standard Base64 is the unpadded one of the other alphabet. -/
theorem base64UrlEncode_eq (data : List UInt8) :
    base64UrlEncode data = Base64.encode urlAlphabet data := by
  have hchars : (Base64.encode standardAlphabet data).map replaceChar =
      Base64.encode urlAlphabet data := by
    apply Base64.map_encode
    exact fun _ _ => rfl
  unfold base64UrlEncode Base64.encodePadded
  rw [List.map_append, List.map_replicate, hchars]
  exact Base64.rdropWhile_append_replicate (not_mem_encode (fun n hn => (urlChar_ne n hn).1) data) _

theorem dot_notMem_base64UrlEncode (data : List UInt8) : '.' ∉ base64UrlEncode data := by
  rw [base64UrlEncode_eq]
  exact not_mem_encode (fun n hn => (urlChar_ne n hn).2) data

theorem base64UrlEncode_ascii (data : List UInt8) :
    ∀ c ∈ base64UrlEncode data, c.toNat < 0x80 := by
  have hchars : ∀ n < 64, (urlAlphabet.char n).toNat < 0x80 := by decide
  rw [base64UrlEncode_eq]
  intro c hc
  obtain ⟨n, hn, rfl⟩ := Base64.mem_encode hc
  exact hchars n hn

theorem decode_base64UrlEncode (data : List UInt8) :
    Base64.decode urlAlphabet (base64UrlEncode data) = some data := by
  rw [base64UrlEncode_eq]
  apply Base64.decode_encode
  intro c hc
  simp only [Base64.isLineBreak, Bool.or_eq_true, decide_eq_true_eq] at hc
  rcases hc with rfl | rfl <;> decide

/-! ### The JSON text is ASCII -/

theorem decodeUtf8_cons {a : UInt8} (h : a.toNat < 0x80) (rest : List UInt8) :
    decodeUtf8 (a :: rest) = Char.ofNat a.toNat :: decodeUtf8 rest := by
  conv_lhs => unfold decodeUtf8
  exact if_pos h

theorem utf8EncodeChar_ascii {c : Char} (h : c.toNat < 0x80) :
    String.utf8EncodeChar c = [UInt8.ofNat c.toNat] := by
  have hle : c.val.toNat ≤ 0x7F := Nat.le_of_lt_succ h
  simp only [String.utf8EncodeChar, if_pos hle]
  rfl

theorem decodeUtf8_ascii {text : List Char} (h : ∀ c ∈ text, c.toNat < 0x80) :
    decodeUtf8 (utf8Bytes text) = text := by
  induction text with
  | nil => rfl
  | cons c text ih =>
    have hc : c.toNat < 0x80 := h c List.mem_cons_self
    have hbyte : (UInt8.ofNat c.toNat).toNat = c.toNat := by
      rw [UInt8.toNat_ofNat', Nat.mod_eq_of_lt (by omega)]
    rw [utf8Bytes, List.flatMap_cons, utf8EncodeChar_ascii hc, List.singleton_append,
      decodeUtf8_cons (by rw [hbyte]; exact hc), hbyte, Char.ofNat_toNat]
    exact congrArg (c :: ·) (ih fun d hd => h d (List.mem_cons_of_mem _ hd))

theorem utf8Bytes_inj {a b : List Char} (h : utf8Bytes a = utf8Bytes b) : a = b := by
  have hencode : a.utf8Encode = b.utf8Encode := by
    simp only [List.utf8Encode]
    exact congrArg _ h
  have hstring : String.ofList a = String.ofList b := by
    apply String.toByteArray_inj.mp
    rwa [String.toByteArray_ofList, String.toByteArray_ofList]
  exact String.ofList_injective hstring

theorem hexDigit_ascii : ∀ k < 16, (Json.hexDigit k).toNat < 0x80 := by decide

theorem hex4_ascii {n : Nat} {d : Char} (h : d ∈ Json.hex4 Json.hexDigit n) : d.toNat < 0x80 := by
  have hdigit : ∀ k, (Json.hexDigit (k % 16)).toNat < 0x80 :=
    fun k => hexDigit_ascii _ (Nat.mod_lt _ (by decide))
  simp only [Json.hex4, List.mem_cons, List.not_mem_nil, or_false] at h
  rcases h with rfl | rfl | rfl | rfl <;> exact hdigit _

theorem escape_ascii {c d : Char} (h : d ∈ javaScriptEncoder.escape c) : d.toNat < 0x80 := by
  unfold Json.Encoder.escape at h
  split at h
  · rename_i hplain
    obtain rfl := List.mem_singleton.mp h
    simp only [javaScriptEncoder, isPlainChar, Bool.and_eq_true, decide_eq_true_eq] at hplain
    omega
  · split at h
    · rename_i e hshort
      have he : e.toNat < 0x80 := by
        simp only [javaScriptEncoder, shortName] at hshort
        split_ifs at hshort <;> obtain rfl := Option.some.inj hshort <;> decide
      simp only [List.mem_cons, List.not_mem_nil, or_false] at h
      rcases h with rfl | rfl
      · decide
      · exact he
    · obtain ⟨n, -, hd⟩ := List.mem_flatMap.mp h
      rcases List.mem_cons.mp hd with rfl | hd
      · decide
      · rcases List.mem_cons.mp hd with rfl | hd
        · decide
        · exact hex4_ascii hd

theorem writeString_ascii {s : List Char} {d : Char} (h : d ∈ javaScriptEncoder.writeString s) :
    d.toNat < 0x80 := by
  rcases List.mem_cons.mp h with rfl | h
  · decide
  · rcases List.mem_append.mp h with h | h
    · obtain ⟨c, -, hd⟩ := List.mem_flatMap.mp h
      exact escape_ascii hd
    · obtain rfl := List.mem_singleton.mp h
      decide

/-! ### The payload -/

theorem Payload.serialize_ascii (p : Payload) : ∀ c ∈ p.serialize, c.toNat < 0x80 := by
  have hmember : ∀ {key value rest : List Char}, (∀ c ∈ value, c.toNat < 0x80) →
      (∀ c ∈ rest, c.toNat < 0x80) →
      ∀ c ∈ javaScriptEncoder.writeMember key value rest, c.toNat < 0x80 := by
    intro key value rest hvalue hrest c hc
    rcases List.mem_append.mp hc with hc | hc
    · exact writeString_ascii hc
    rcases List.mem_cons.mp hc with rfl | hc
    · decide
    rcases List.mem_append.mp hc with hc | hc
    · exact hvalue c hc
    · exact hrest c hc
  have hcons : ∀ {d : Char} {rest : List Char}, d.toNat < 0x80 →
      (∀ c ∈ rest, c.toNat < 0x80) → ∀ c ∈ d :: rest, c.toNat < 0x80 := by
    intro d rest hd hrest
    exact List.forall_mem_cons.mpr ⟨hd, hrest⟩
  apply hcons (by decide)
  apply hmember (fun c hc => (isNumberChar_of_mem_repr hc).2)
  apply hcons (by decide)
  apply hmember (fun c hc => writeString_ascii hc)
  apply hcons (by decide)
  apply hmember (fun c hc => writeString_ascii hc)
  exact hcons (by decide) (by simp)

theorem Payload.read_serialize (p : Payload) :
    Json.read 10000 p.serialize = some (.object [("exp".toList, .number p.exp.repr.toList),
      ("route".toList, .string p.route.toList),
      ("deployment_key".toList, .string p.deployment_key.toList)]) :=
  javaScriptEncoder.read_three (readsBefore_repr (by decide) _ _)
    (javaScriptEncoder.readsBefore_string _ _ _) (javaScriptEncoder.readsBefore_string _ _ _)

theorem Payload.setMember_exp (p : Payload) {key literal : List Char}
    (h : foldName key = foldName "exp".toList) :
    p.setMember (key, .number literal) =
      (parseInt literal).map fun exp => { p with exp := exp } :=
  if_pos h

theorem Payload.setMember_route (p : Payload) {key s : List Char}
    (hexp : foldName key ≠ foldName "exp".toList)
    (h : foldName key = foldName "route".toList) :
    p.setMember (key, .string s) = some { p with route := String.ofList s } :=
  (if_neg hexp).trans (if_pos h)

theorem Payload.setMember_deployment_key (p : Payload) {key s : List Char}
    (hexp : foldName key ≠ foldName "exp".toList)
    (hroute : foldName key ≠ foldName "route".toList)
    (h : foldName key = foldName "deployment_key".toList) :
    p.setMember (key, .string s) = some { p with deployment_key := String.ofList s } :=
  (if_neg hexp).trans ((if_neg hroute).trans (if_pos h))

/-- What C# writes is what Go reads. -/
theorem Payload.unmarshal_serialize (p : Payload)
    (hexp : -(2 ^ 63) ≤ p.exp ∧ p.exp < 2 ^ 63) :
    unmarshal (utf8Bytes p.serialize) = some p := by
  have hint : parseInt p.exp.repr.toList = some p.exp := by
    rw [parseInt, String.ofList_toList, Int.toInt?_repr, Option.filter_some]
    exact if_pos (by simpa using hexp)
  rw [unmarshal, decodeUtf8_ascii p.serialize_ascii, p.read_serialize]
  dsimp only
  rw [List.foldlM_cons, setMember_exp _ rfl, hint, Option.map_some, Option.bind_eq_bind,
    Option.bind_some, List.foldlM_cons, setMember_route _ (by decide) rfl, Option.bind_eq_bind,
    Option.bind_some, List.foldlM_cons,
    setMember_deployment_key _ (by decide) (by decide) rfl]
  simp only [String.ofList_toList]
  rfl

/-! ### The two programs -/

namespace TokenPlatform

variable (platform : TokenPlatform)

/-- What `Verify` makes of a payload that is signed. -/
def checkPayload (now : Int) (payload : Payload) : Except String Payload :=
  if payload.exp ≤ 0 ∨ payload.route = "" then .error "invalid payload content"
  else if payload.exp ≤ now then
    .error ("token expired (Exp: " ++ platform.format payload.exp ++ ", Server: " ++
      platform.format now ++ ")")
  else .ok payload

theorem checkPayload_eq_ok_iff {now : Int} {payload p : Payload} :
    platform.checkPayload now payload = .ok p ↔
      payload = p ∧ 0 < payload.exp ∧ payload.route ≠ "" ∧ now < payload.exp := by
  unfold checkPayload
  split_ifs with hcontent hexpired
  · simp only [false_iff]
    rintro ⟨-, hexp, hroute, -⟩
    rcases hcontent with h | h
    · omega
    · exact hroute h
  · simp only [false_iff]
    rintro ⟨-, -, -, hnow⟩
    omega
  · obtain ⟨hexp, hroute⟩ := not_or.mp hcontent
    constructor
    · intro h
      exact ⟨Except.ok.inj h, by omega, hroute, by omega⟩
    · rintro ⟨rfl, -⟩
      rfl

/-- A text is a signed payload when its two parts are the MAC's and the payload's encodings. -/
structure Signed (payloadB64 sigB64 : List Char) (payload : Payload) : Prop where
  key : isNullOrWhiteSpace platform.privateKey = false
  signature : Base64.decode urlAlphabet sigB64 =
    some (platform.hmac (utf8Bytes platform.privateKey.toList) (utf8Bytes payloadB64))
  payload : (Base64.decode urlAlphabet payloadB64).bind Payload.unmarshal = some payload

theorem verify_of_signed {now : Int} {token : String} {payloadB64 sigB64 : List Char}
    {payload : Payload} (hsplit : token.toList.splitOn '.' = [payloadB64, sigB64])
    (h : platform.Signed payloadB64 sigB64 payload) :
    platform.verify now token = platform.checkPayload now payload := by
  obtain ⟨bytes, hbytes, hpayload⟩ := Option.bind_eq_some_iff.mp h.payload
  simp only [verify, hsplit, h.key, h.signature, hbytes, hpayload, Bool.false_eq_true, if_false,
    ne_eq, not_true_eq_false]
  rfl

theorem not_mem_of_decode {text : List Char} {bytes : List UInt8}
    (h : Base64.decode urlAlphabet text = some bytes) : '.' ∉ text := by
  intro hmem
  rcases Base64.value_of_decode h hmem with hbreak | hvalue
  · cases hbreak
  · cases hvalue

/-- `Verify` accepts the signed payloads that it admits, and nothing else. -/
theorem verify_eq_ok_iff {now : Int} {token : String} {p : Payload} :
    platform.verify now token = .ok p ↔
      ∃ payloadB64 sigB64, token.toList = payloadB64 ++ '.' :: sigB64 ∧
        platform.Signed payloadB64 sigB64 p ∧ 0 < p.exp ∧ p.route ≠ "" ∧ now < p.exp := by
  constructor
  · intro h
    unfold verify at h
    split at h
    · rename_i payloadB64 sigB64 hsplit
      have htext : ['.'].intercalate (token.toList.splitOn '.') = token.toList :=
        List.intercalate_splitOn '.'
      rw [hsplit] at htext
      split_ifs at h with hkey
      split at h
      · cases h
      rename_i sigBytes hsig
      split_ifs at h with hmac
      split at h
      · cases h
      rename_i payloadBytes hbytes
      split at h
      · cases h
      rename_i payload hpayload
      obtain ⟨rfl, hchecked⟩ := platform.checkPayload_eq_ok_iff.mp h
      refine ⟨payloadB64, sigB64, by simpa using htext.symm, ⟨?_, ?_, ?_⟩, hchecked⟩
      · exact Bool.not_eq_true _ ▸ hkey
      · rw [hsig, not_not.mp hmac]
      · rw [hbytes, Option.bind_some, hpayload]
    · cases h
  · rintro ⟨payloadB64, sigB64, htext, hsigned, hchecked⟩
    obtain ⟨bytes, hbytes, -⟩ := Option.bind_eq_some_iff.mp hsigned.payload
    have hsplit : token.toList.splitOn '.' = [payloadB64, sigB64] := by
      rw [htext, List.splitOn_append_cons_self_of_not_mem (not_mem_of_decode hbytes),
        List.splitOn_eq_singleton (not_mem_of_decode hsigned.signature)]
    rw [platform.verify_of_signed hsplit hsigned]
    exact platform.checkPayload_eq_ok_iff.mpr ⟨rfl, hchecked⟩

/-- The token that C# makes is a signed payload for Go. -/
theorem signed_generate (hkey : isNullOrWhiteSpace platform.privateKey = false) (routeInfo : String)
    (expiryUtc : DateTimeOffset) (deploymentKey : String) :
    ∃ token payloadB64 sigB64,
      platform.generateChallengeToken routeInfo expiryUtc deploymentKey = .ok token ∧
      token.toList = payloadB64 ++ '.' :: sigB64 ∧
      platform.Signed payloadB64 sigB64
        ⟨expiryUtc.toUnixTimeSeconds, routeInfo, deploymentKey⟩ := by
  have hrange := expiryUtc.range
  refine ⟨_, _, _, if_neg (by simp [hkey]), String.toList_ofList, hkey,
    decode_base64UrlEncode _, ?_⟩
  rw [decode_base64UrlEncode, Option.bind_some]
  apply Payload.unmarshal_serialize
  dsimp only
  omega

/-- What `Verify` says of a token that `GenerateChallengeToken` made under the same key. -/
theorem verify_generate (hkey : isNullOrWhiteSpace platform.privateKey = false) (now : Int)
    (routeInfo : String) (expiryUtc : DateTimeOffset) (deploymentKey : String) :
    (platform.generateChallengeToken routeInfo expiryUtc deploymentKey).bind
        (platform.verify now) =
      platform.checkPayload now ⟨expiryUtc.toUnixTimeSeconds, routeInfo, deploymentKey⟩ := by
  obtain ⟨token, payloadB64, sigB64, htoken, htext, hsigned⟩ :=
    platform.signed_generate hkey routeInfo expiryUtc deploymentKey
  obtain ⟨bytes, hbytes, -⟩ := Option.bind_eq_some_iff.mp hsigned.payload
  have hsplit : token.toList.splitOn '.' = [payloadB64, sigB64] := by
    rw [htext, List.splitOn_append_cons_self_of_not_mem (not_mem_of_decode hbytes),
      List.splitOn_eq_singleton (not_mem_of_decode hsigned.signature)]
  rw [htoken]
  exact platform.verify_of_signed hsplit hsigned

/-- A token is read as it was written, if the key is not blank, the route not empty and the expiry
after the epoch and the clock; and only signed payloads are accepted. -/
theorem token_agrees (now : Int) :
    (∀ (routeInfo : String) (expiryUtc : DateTimeOffset) (deploymentKey : String),
      (platform.generateChallengeToken routeInfo expiryUtc deploymentKey).bind
          (platform.verify now) =
        .ok ⟨expiryUtc.toUnixTimeSeconds, routeInfo, deploymentKey⟩ ↔
      isNullOrWhiteSpace platform.privateKey = false ∧ 0 < expiryUtc.toUnixTimeSeconds ∧
        routeInfo ≠ "" ∧ now < expiryUtc.toUnixTimeSeconds) ∧
    ∀ (token : String) (p : Payload), platform.verify now token = .ok p ↔
      ∃ payloadB64 sigB64, token.toList = payloadB64 ++ '.' :: sigB64 ∧
        platform.Signed payloadB64 sigB64 p ∧ 0 < p.exp ∧ p.route ≠ "" ∧ now < p.exp := by
  refine ⟨?_, fun _ _ => platform.verify_eq_ok_iff⟩
  intro routeInfo expiryUtc deploymentKey
  cases hkey : isNullOrWhiteSpace platform.privateKey with
  | true =>
    rw [generateChallengeToken, if_pos hkey]
    constructor
    · intro h
      cases h
    · rintro ⟨h, -⟩
      cases h
  | false =>
    rw [platform.verify_generate hkey now routeInfo expiryUtc deploymentKey,
      platform.checkPayload_eq_ok_iff]
    exact and_congr_left' (iff_of_true rfl rfl)

/-- An empty route is written and not read. -/
theorem empty_route_refused :
    ¬∀ (platform : TokenPlatform) (now : Int) (routeInfo : String) (expiryUtc : DateTimeOffset)
      (deploymentKey : String), isNullOrWhiteSpace platform.privateKey = false →
      now < expiryUtc.toUnixTimeSeconds →
      (platform.generateChallengeToken routeInfo expiryUtc deploymentKey).bind
          (platform.verify now) =
        .ok ⟨expiryUtc.toUnixTimeSeconds, routeInfo, deploymentKey⟩ := by
  intro h
  let platform : TokenPlatform := ⟨"k", fun _ _ => [0], fun _ => ""⟩
  have hkey : isNullOrWhiteSpace platform.privateKey = false := by decide
  have hread := h platform 0 "" ⟨1, by decide⟩ "d" hkey (by decide)
  rw [platform.verify_generate hkey, platform.checkPayload_eq_ok_iff] at hread
  exact hread.2.2.1 rfl

end TokenPlatform

end Fctf
