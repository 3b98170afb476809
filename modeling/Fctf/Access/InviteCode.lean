import Fctf.Gateway.Token
import Fctf.Lib.Table

/-!
The invite codes of teams. A code names its team and carries a MAC of the team's password under the
key of the server, and is signed as a whole with the same key.
-/

namespace Fctf.InviteCode

def isAscii (text : List Char) : Bool := text.all fun c => c.toNat < 0x80

/-- The row of a team. A password is stored as its hash, which is not empty and in ASCII. -/
structure Team where
  id : Int
  name : String
  password : Option String
  hashed : ∀ hash ∈ password, hash ≠ "" ∧ isAscii hash.toList = true

/-! ### Python's library -/

/-- `hexdigest`. -/
def hexDigit (n : Nat) : Char := if n < 10 then Char.ofNat (48 + n) else Char.ofNat (87 + n)

def hexdigest (digest : List UInt8) : List Char :=
  digest.flatMap fun b => [hexDigit (b.toNat / 16), hexDigit (b.toNat % 16)]

def quoted (text : List Char) : List Char := '"' :: (text ++ ['"'])

/-- `json.dumps` of an invite, with its keys sorted; the digits of `v` need no escape. -/
def dumps (exp id : Int) (v : List Char) : List Char :=
  '{' :: (quoted "exp".toList ++ ':' :: ((toString exp).toList ++ ',' ::
    (quoted "id".toList ++ ':' :: ((toString id).toList ++ ',' ::
      (quoted "v".toList ++ ':' :: (quoted v ++ ['}']))))))

/-- The tree of an invite. -/
def inviteTree (exp id : Int) (v : List Char) : Json.Tree :=
  .object [("exp".toList, .number (toString exp).toList),
    ("id".toList, .number (toString id).toList),
    ("v".toList, .string v)]

/-- The key of the server, SHA-256 in HMAC, `json.loads` and `int`. -/
structure Server where
  privateKey : String
  hmac : List UInt8 → List UInt8 → List UInt8
  loads : List Char → Option Json.Tree
  int : Json.Tree → Option Int
  /-- Two texts do not have the same MAC. -/
  hmac_unique : ∀ key a b, hmac key a = hmac key b → a = b
  loads_dumps : ∀ exp id digest,
    loads (dumps exp id (hexdigest digest)) = some (inviteTree exp id (hexdigest digest))
  int_number : ∀ n : Int, int (.number (toString n).toList) = some n

/-- `decode("utf-8")`. -/
def decodeUtf8Strict (bytes : List UInt8) : Option (List Char) :=
  bytes.toByteArray.utf8Decode?.map Array.toList

/-! ### Codes -/

inductive InviteError
  | runtimeError
  | unicodeEncodeError
  | keyError
  | tokenInvalid
  | tokenExpired
  | notFound
  deriving DecidableEq, Repr

def orThrow {α : Type} (e : InviteError) : Option α → Except InviteError α
  | none => .error e
  | some a => .ok a

def ensure (condition : Bool) (e : InviteError) : Except InviteError Unit :=
  if condition then .ok () else .error e

/-- What is read from the payload of a code. -/
structure Invite where
  id : Int
  exp : Int
  v : Option Json.Tree

/-- A member of a dictionary: the last one with the key. -/
def member (members : List (List Char × Json.Tree)) (key : String) : Option Json.Tree :=
  (members.reverse.find? fun m => m.1 = key.toList).map Prod.snd

def encodeTeamInvitePayload (exp id : Int) (v : List Char) : List Char :=
  base64UrlEncode (utf8Bytes (dumps exp id v))

def decodeTeamInvitePayload (encodedPayload : List Char) : Option (List Char) :=
  let padded := encodedPayload ++ List.replicate ((4 - encodedPayload.length % 4) % 4) '='
  if isAscii padded then
    let standard := padded.map fun c => if c = '-' then '+' else if c = '_' then '/' else c
    (Base64.decodeSkipping standardAlphabet '=' standard).bind decodeUtf8Strict
  else none

/-- `code.split(".", 1)`. -/
def splitCode (code : List Char) : Option (List Char × List Char) :=
  match code.dropWhile (· ≠ '.') with
  | [] => none
  | _ :: signature => some (code.takeWhile (· ≠ '.'), signature)

/-- A text that is equal to a value of JSON. -/
def equals (text : List Char) : Json.Tree → Bool
  | .string s => text = s
  | _ => false

namespace Server

variable (server : Server)

def teamInviteSecretKey : Except InviteError (List UInt8) :=
  if server.privateKey = "" then .error .runtimeError
  else .ok (utf8Bytes server.privateKey.toList)

def teamInviteSignature (value : List Char) (secretKey : List UInt8) :
    Except InviteError (List Char) :=
  if isAscii value then .ok (hexdigest (server.hmac secretKey (utf8Bytes value)))
  else .error .unicodeEncodeError

def teamInviteVerification (teamId : Int) (teamPassword : Option String) (secretKey : List UInt8) :
    Except InviteError (List Char) :=
  let teamPassword := teamPassword.getD ""
  server.teamInviteSignature ((toString teamId).toList ++ ':' :: teamPassword.toList) secretKey

/-- The length of time for which a code is valid is a day. -/
def getInviteCode (now : Int) (team : Team) : Except InviteError (List Char) := do
  let secretKey ← server.teamInviteSecretKey
  let v ← server.teamInviteVerification team.id team.password secretKey
  let payload := encodeTeamInvitePayload (now + 86400) team.id v
  let signature ← server.teamInviteSignature payload secretKey
  .ok (payload ++ '.' :: signature)

/-- The `try` block. -/
def readInvite (payload : List Char) : Option Invite := do
  let text ← decodeTeamInvitePayload payload
  match ← server.loads text with
  | .object members =>
    let id ← (member members "id").bind server.int
    let exp ← server.int ((member members "exp").getD (.number ['0']))
    some ⟨id, exp, member members "v"⟩
  | _ => none

def loadInviteCode (teams : Table Team.id) (now : Int) (code : List Char) :
    Except InviteError Team := do
  let (payload, signature) ← orThrow .tokenInvalid (splitCode code)
  let secretKey ← server.teamInviteSecretKey
  let expectedSignature ← server.teamInviteSignature payload secretKey
  ensure (expectedSignature = signature) .tokenInvalid
  let invite ← orThrow .tokenInvalid (server.readInvite payload)
  ensure (now ≤ invite.exp) .tokenExpired
  let team ← orThrow .notFound (teams.find invite.id)
  let verification ← server.teamInviteVerification team.id team.password secretKey
  let v ← orThrow .keyError invite.v
  ensure (equals verification v) .tokenInvalid
  .ok team

end Server

/-! ### Texts -/

theorem hexDigit_inj : ∀ m < 16, ∀ n < 16, hexDigit m = hexDigit n → m = n := by decide

theorem hexdigest_inj {a b : List UInt8} (h : hexdigest a = hexdigest b) : a = b := by
  induction a generalizing b with
  | nil =>
    cases b with
    | nil => rfl
    | cons d b => cases h
  | cons c a ih =>
    cases b with
    | nil => cases h
    | cons d b =>
      have hc := c.toNat_lt
      have hd := d.toNat_lt
      simp only [hexdigest, List.flatMap_cons, List.cons_append, List.nil_append,
        List.cons.injEq] at h
      have hhigh := hexDigit_inj _ (by omega) _ (by omega) h.1
      have hlow := hexDigit_inj _ (by omega) _ (by omega) h.2.1
      have hbyte : c = d := UInt8.toNat_inj.mp (by omega)
      rw [hbyte, ih h.2.2]

theorem isAscii_iff {text : List Char} : isAscii text = true ↔ ∀ c ∈ text, c.toNat < 0x80 := by
  simp [isAscii]

theorem colon_notMem_toString (n : Int) : ':' ∉ (toString n).toList := by
  intro h
  exact absurd (isNumberChar_of_mem_repr h).1 (by decide)

theorem toString_inj {m n : Int} (h : (toString m).toList = (toString n).toList) : m = n := by
  have hstring : m.repr = n.repr := String.toList_inj.mp h
  have hparsed := congrArg String.toInt? hstring
  rw [Int.toInt?_repr, Int.toInt?_repr] at hparsed
  exact Option.some.inj hparsed

/-- The text that is verified tells its team and its password. -/
theorem verified_inj {id id' : Int} {password password' : List Char}
    (h : (toString id).toList ++ ':' :: password = (toString id').toList ++ ':' :: password') :
    id = id' ∧ password = password' := by
  have hparts := congrArg (List.splitOn ':') h
  rw [List.splitOn_append_cons_self_of_not_mem (colon_notMem_toString id),
    List.splitOn_append_cons_self_of_not_mem (colon_notMem_toString id')] at hparts
  obtain rfl := toString_inj (List.cons.inj hparts).1
  exact ⟨rfl, (List.cons.inj (List.append_cancel_left h)).2⟩

theorem decodeUtf8Strict_utf8Bytes (text : List Char) :
    decodeUtf8Strict (utf8Bytes text) = some text := by
  have hencode : (utf8Bytes text).toByteArray = text.utf8Encode := by
    simp only [utf8Bytes, List.utf8Encode]
  rw [decodeUtf8Strict, hencode, List.utf8Decode?_utf8Encode]
  rfl

theorem isAscii_encode (bytes : List UInt8) : isAscii (base64UrlEncode bytes) = true :=
  isAscii_iff.mpr (base64UrlEncode_ascii bytes)

theorem standard_char : ∀ n < 64,
    (fun c => if c = '-' then '+' else if c = '_' then '/' else c) (urlAlphabet.char n) =
      standardAlphabet.char n := by
  decide

theorem decodeTeamInvitePayload_eq (bytes : List UInt8) :
    decodeTeamInvitePayload (base64UrlEncode bytes) = decodeUtf8Strict bytes := by
  have hascii : ∀ k, isAscii (base64UrlEncode bytes ++ List.replicate k '=') = true := by
    intro k
    rw [isAscii, List.all_append, Bool.and_eq_true]
    refine ⟨isAscii_encode bytes, List.all_eq_true.mpr fun c hc => ?_⟩
    obtain rfl := List.eq_of_mem_replicate hc
    decide
  have hmap : ∀ k, (base64UrlEncode bytes ++ List.replicate k '=').map
      (fun c => if c = '-' then '+' else if c = '_' then '/' else c) =
        Base64.encode standardAlphabet bytes ++ List.replicate k '=' := by
    intro k
    rw [List.map_append, List.map_replicate, base64UrlEncode_eq,
      Base64.map_encode standard_char]
    rfl
  have hlength : (base64UrlEncode bytes).length =
      (Base64.encode standardAlphabet bytes).length := by
    rw [base64UrlEncode_eq, Base64.length_encode, Base64.length_encode]
  simp only [decodeTeamInvitePayload, hascii, if_true, hmap, hlength]
  rw [Base64.decodeSkipping_encode (by decide), Option.bind_some]

/-- A payload comes back as its text. -/
theorem decode_encode (exp id : Int) (v : List Char) :
    decodeTeamInvitePayload (encodeTeamInvitePayload exp id v) = some (dumps exp id v) := by
  rw [encodeTeamInvitePayload, decodeTeamInvitePayload_eq, decodeUtf8Strict_utf8Bytes]

/-! ### Codes that are accepted -/

theorem bind_eq_ok {α β : Type} {x : Except InviteError α} {f : α → Except InviteError β} {b : β} :
    (x >>= f) = .ok b ↔ ∃ a, x = .ok a ∧ f a = .ok b := by
  cases x with
  | error e => simp [bind, Except.bind]
  | ok a => simp [bind, Except.bind]

theorem orThrow_eq_ok {α : Type} {e : InviteError} {o : Option α} {a : α} :
    orThrow e o = .ok a ↔ o = some a := by
  cases o <;> simp [orThrow]

theorem ensure_eq_ok {condition : Bool} {e : InviteError} {u : Unit} :
    ensure condition e = .ok u ↔ condition = true := by
  cases condition <;> simp [ensure]

theorem equals_eq_true {text : List Char} {v : Json.Tree} :
    equals text v = true ↔ v = .string text := by
  cases v <;> simp [equals, eq_comm]

theorem splitCode_append {payload signature : List Char} (h : '.' ∉ payload) :
    splitCode (payload ++ '.' :: signature) = some (payload, signature) := by
  have hkept : ∀ c ∈ payload, (fun c => decide (c ≠ '.')) c = true := by
    intro c hc
    exact decide_eq_true fun heq => h (heq ▸ hc)
  rw [splitCode, List.dropWhile_append_of_pos hkept, List.takeWhile_append_of_pos hkept]
  simp

theorem splitCode_eq_some {code payload signature : List Char}
    (h : splitCode code = some (payload, signature)) : code = payload ++ '.' :: signature := by
  unfold splitCode at h
  split at h
  · cases h
  · rename_i dot rest hdrop
    obtain ⟨rfl, rfl⟩ := Prod.mk.inj (Option.some.inj h)
    have hdot : dot = '.' := by
      have hhead := List.head?_dropWhile_not (fun c => decide (c ≠ '.')) code
      rw [hdrop] at hhead
      simpa using hhead
    have hwhole := List.takeWhile_append_dropWhile (p := fun c => decide (c ≠ '.')) (l := code)
    rw [hdrop, hdot] at hwhole
    exact hwhole.symm

namespace Server

variable {server : Server} {teams : Table Team.id} {now : Int} {code : List Char} {team : Team}

theorem teamInviteSignature_eq_ok {value signature : List Char} {secretKey : List UInt8} :
    server.teamInviteSignature value secretKey = .ok signature ↔
      isAscii value = true ∧ signature = hexdigest (server.hmac secretKey (utf8Bytes value)) := by
  unfold teamInviteSignature
  split_ifs with hascii <;> simp [hascii, eq_comm]

/-- The signature of a text is that of no other. -/
theorem teamInviteSignature_inj {value value' signature : List Char} {secretKey : List UInt8}
    (h : server.teamInviteSignature value secretKey = .ok signature)
    (h' : server.teamInviteSignature value' secretKey = .ok signature) : value = value' := by
  have hhex := (teamInviteSignature_eq_ok.mp h).2.symm.trans (teamInviteSignature_eq_ok.mp h').2
  exact utf8Bytes_inj (server.hmac_unique _ _ _ (hexdigest_inj hhex))

/-- The payload of a code that is accepted: it has a team, not too late, and the team's password
of now. -/
def Opens (server : Server) (teams : Table Team.id) (now : Int) (payload : List Char)
    (secretKey : List UInt8) (team : Team) : Prop :=
  ∃ invite v, server.readInvite payload = some invite ∧ now ≤ invite.exp ∧
    teams.find invite.id = some team ∧ invite.v = some (.string v) ∧
      server.teamInviteVerification team.id team.password secretKey = .ok v

/-- What `loadInviteCode` accepts. -/
theorem loadInviteCode_eq_ok : server.loadInviteCode teams now code = .ok team ↔
    ∃ payload signature secretKey, splitCode code = some (payload, signature) ∧
      server.teamInviteSecretKey = .ok secretKey ∧
      server.teamInviteSignature payload secretKey = .ok signature ∧
      server.Opens teams now payload secretKey team := by
  simp only [loadInviteCode, Opens, bind_eq_ok, orThrow_eq_ok, ensure_eq_ok, equals_eq_true,
    Prod.exists, decide_eq_true_eq, exists_const, Except.ok.injEq]
  constructor
  · rintro ⟨payload, signature, hsplit, secretKey, hkey, _, hsign, rfl, invite, hread, hexp, t,
      hfind, verification, hverify, v, hv, rfl, rfl⟩
    exact ⟨payload, _, secretKey, hsplit, hkey, hsign, invite, verification, hread, hexp, hfind, hv,
      hverify⟩
  · rintro ⟨payload, signature, secretKey, hsplit, hkey, hsign, invite, v, hread, hexp, hfind, hv,
      hverify⟩
    exact ⟨payload, signature, hsplit, secretKey, hkey, signature, hsign, rfl, invite, hread, hexp,
      team, hfind, v, hverify, .string v, hv, rfl, rfl⟩

theorem password_inj {t t' : Team} (h : t.password.getD "" = t'.password.getD "") :
    t.password = t'.password := by
  cases hp : t.password with
  | none =>
    cases hp' : t'.password with
    | none => rfl
    | some hash' =>
      rw [hp, hp'] at h
      exact absurd h.symm (t'.hashed hash' hp').1
  | some hash =>
    cases hp' : t'.password with
    | none =>
      rw [hp, hp'] at h
      exact absurd h (t.hashed hash hp).1
    | some hash' =>
      rw [hp, hp'] at h
      exact congrArg some h

/-- Two teams of which the same text is verified are one, with one password. -/
theorem teamInviteVerification_inj {t t' : Team} {v : List Char} {secretKey : List UInt8}
    (h : server.teamInviteVerification t.id t.password secretKey = .ok v)
    (h' : server.teamInviteVerification t'.id t'.password secretKey = .ok v) :
    t.id = t'.id ∧ t.password = t'.password := by
  obtain ⟨hid, hpassword⟩ := verified_inj (teamInviteSignature_inj h h')
  exact ⟨hid, password_inj (String.toList_inj.mp hpassword)⟩

/-- A code has one team and one password of it, at whatever times it is accepted. -/
theorem loadInviteCode_inj {teams' : Table Team.id} {now' : Int} {team' : Team}
    (h : server.loadInviteCode teams now code = .ok team)
    (h' : server.loadInviteCode teams' now' code = .ok team') :
    team.id = team'.id ∧ team.password = team'.password := by
  obtain ⟨payload, signature, secretKey, hsplit, hkey, -, invite, v, hread, -, -, hv, hverify⟩ :=
    loadInviteCode_eq_ok.mp h
  obtain ⟨payload', signature', secretKey', hsplit', hkey', -, invite', v', hread', -, -, hv',
    hverify'⟩ := loadInviteCode_eq_ok.mp h'
  obtain ⟨rfl, rfl⟩ := Prod.mk.inj (Option.some.inj (hsplit.symm.trans hsplit'))
  obtain rfl := Except.ok.inj (hkey.symm.trans hkey')
  obtain rfl := Option.some.inj (hread.symm.trans hread')
  obtain rfl := Json.Tree.string.inj (Option.some.inj (hv.symm.trans hv'))
  exact teamInviteVerification_inj hverify hverify'

/-! ### Codes that are issued -/

/-- The text of a team that is verified is ASCII. -/
theorem teamInviteVerification_isOk (server : Server) (team : Team) (secretKey : List UInt8) :
    ∃ digest, server.teamInviteVerification team.id team.password secretKey =
      .ok (hexdigest digest) := by
  refine ⟨_, teamInviteSignature_eq_ok.mpr ⟨?_, rfl⟩⟩
  rw [isAscii_iff, List.forall_mem_append, List.forall_mem_cons]
  refine ⟨fun c hc => (isNumberChar_of_mem_repr hc).2, by decide, ?_⟩
  rw [← isAscii_iff]
  cases hp : team.password with
  | none => rfl
  | some hash => exact (team.hashed hash hp).2

/-- What is read from the payload that is issued. -/
theorem readInvite_encode (exp id : Int) (digest : List UInt8) :
    server.readInvite (encodeTeamInvitePayload exp id (hexdigest digest)) =
      some ⟨id, exp, some (.string (hexdigest digest))⟩ := by
  have hid : member [("exp".toList, .number (toString exp).toList),
      ("id".toList, .number (toString id).toList), ("v".toList, .string (hexdigest digest))] "id" =
        some (.number (toString id).toList) := rfl
  have hexp : member [("exp".toList, .number (toString exp).toList),
      ("id".toList, .number (toString id).toList), ("v".toList, .string (hexdigest digest))] "exp" =
        some (.number (toString exp).toList) := rfl
  have hv : member [("exp".toList, .number (toString exp).toList),
      ("id".toList, .number (toString id).toList), ("v".toList, .string (hexdigest digest))] "v" =
        some (.string (hexdigest digest)) := rfl
  simp only [readInvite, decode_encode, Option.bind_eq_bind, Option.bind_some, server.loads_dumps,
    inviteTree, hid, hexp, hv, Option.getD_some, server.int_number]

/-- The code that is issued, as `loadInviteCode` takes it apart. -/
theorem getInviteCode_eq_ok : server.getInviteCode now team = .ok code ↔
    ∃ secretKey digest signature, server.teamInviteSecretKey = .ok secretKey ∧
      server.teamInviteVerification team.id team.password secretKey = .ok (hexdigest digest) ∧
      server.teamInviteSignature
        (encodeTeamInvitePayload (now + 86400) team.id (hexdigest digest)) secretKey =
          .ok signature ∧
      encodeTeamInvitePayload (now + 86400) team.id (hexdigest digest) ++ '.' :: signature =
        code := by
  simp only [getInviteCode, bind_eq_ok, Except.ok.injEq]
  constructor
  · rintro ⟨secretKey, hkey, v, hverify, signature, hsign, hcode⟩
    obtain ⟨digest, hdigest⟩ := teamInviteVerification_isOk server team secretKey
    obtain rfl := Except.ok.inj (hdigest.symm.trans hverify)
    exact ⟨secretKey, digest, signature, hkey, hdigest, hsign, hcode⟩
  · rintro ⟨secretKey, digest, signature, hkey, hverify, hsign, hcode⟩
    exact ⟨secretKey, hkey, _, hverify, signature, hsign, hcode⟩

theorem getInviteCode_isOk (hkey : server.privateKey ≠ "") (now : Int) (team : Team) :
    ∃ code, server.getInviteCode now team = .ok code := by
  obtain ⟨digest, hverify⟩ :=
    teamInviteVerification_isOk server team (utf8Bytes server.privateKey.toList)
  exact ⟨_, getInviteCode_eq_ok.mpr ⟨_, digest, _, if_neg hkey, hverify,
    teamInviteSignature_eq_ok.mpr ⟨isAscii_encode _, rfl⟩, rfl⟩⟩

/-- A code that is issued opens its team's row for a day, and as long as the password stays. -/
theorem load_issued_iff {later : Int} {t : Team}
    (hissued : server.getInviteCode now team = .ok code) :
    server.loadInviteCode teams later code = .ok t ↔
      teams.find team.id = some t ∧ later ≤ now + 86400 ∧ t.password = team.password := by
  obtain ⟨secretKey, digest, signature, hkey, hverify, hsign, rfl⟩ :=
    getInviteCode_eq_ok.mp hissued
  have hdot : '.' ∉ encodeTeamInvitePayload (now + 86400) team.id (hexdigest digest) :=
    dot_notMem_base64UrlEncode _
  rw [loadInviteCode_eq_ok]
  constructor
  · rintro ⟨payload, signature', secretKey', hsplit, hkey', -, invite, v, hread, hexp, hfind, hv,
      hverify'⟩
    rw [splitCode_append hdot] at hsplit
    obtain ⟨rfl, rfl⟩ := Prod.mk.inj (Option.some.inj hsplit)
    obtain rfl := Except.ok.inj (hkey.symm.trans hkey')
    rw [readInvite_encode] at hread
    obtain rfl := Option.some.inj hread
    obtain rfl := Json.Tree.string.inj (Option.some.inj hv)
    exact ⟨hfind, hexp, (teamInviteVerification_inj hverify' hverify).2⟩
  · rintro ⟨hfind, hexp, hpassword⟩
    have hid := Table.key_of_find hfind
    refine ⟨_, signature, secretKey, splitCode_append hdot, hkey, hsign, _, _,
      readInvite_encode _ _ _, hexp, hfind, rfl, ?_⟩
    rw [hid, hpassword]
    exact hverify

end Server

/-! ### A server -/

theorem writeString_of_plain {text : List Char} (h : ∀ c ∈ text, isPlainChar c = true) :
    javaScriptEncoder.writeString text = quoted text := by
  have hescape : text.flatMap javaScriptEncoder.escape = text := by
    induction text with
    | nil => rfl
    | cons c text ih =>
      have hc : javaScriptEncoder.escape c = [c] := if_pos (h c List.mem_cons_self)
      rw [List.flatMap_cons, hc, ih fun d hd => h d (List.mem_cons_of_mem _ hd)]
      rfl
  rw [Json.Encoder.writeString, hescape, quoted]

theorem hexdigest_plain (digest : List UInt8) : ∀ c ∈ hexdigest digest, isPlainChar c = true := by
  have hdigit : ∀ n < 16, isPlainChar (hexDigit n) = true := by decide
  intro c hc
  obtain ⟨b, -, hc⟩ := List.mem_flatMap.mp hc
  have hb := b.toNat_lt
  simp only [List.mem_cons, List.not_mem_nil, or_false] at hc
  rcases hc with rfl | rfl
  · exact hdigit _ (by omega)
  · exact hdigit _ (by omega)

theorem dumps_eq (exp id : Int) (digest : List UInt8) :
    dumps exp id (hexdigest digest) =
      '{' :: javaScriptEncoder.writeMember "exp".toList exp.repr.toList
        (',' :: javaScriptEncoder.writeMember "id".toList id.repr.toList
          (',' :: javaScriptEncoder.writeMember "v".toList
            (javaScriptEncoder.writeString (hexdigest digest)) ['}'])) := by
  simp only [Json.Encoder.writeMember]
  rw [writeString_of_plain (hexdigest_plain digest),
    writeString_of_plain (List.all_eq_true.mp (by decide)),
    writeString_of_plain (List.all_eq_true.mp (by decide)),
    writeString_of_plain (List.all_eq_true.mp (by decide))]
  rfl

theorem read_dumps (exp id : Int) (digest : List UInt8) :
    Json.read 10000 (dumps exp id (hexdigest digest)) =
      some (inviteTree exp id (hexdigest digest)) := by
  rw [dumps_eq]
  exact javaScriptEncoder.read_three (readsBefore_repr (by decide) _ _)
    (readsBefore_repr (by decide) _ _) (javaScriptEncoder.readsBefore_string _ _ _)

/-- A number is read as it is, a MAC keeps everything. -/
def readingServer : Server where
  privateKey := "key"
  hmac key message := key ++ message
  loads := Json.read 10000
  int
    | .number literal => (String.ofList literal).toInt?
    | _ => none
  hmac_unique _ _ _ := List.append_cancel_left
  loads_dumps := read_dumps
  int_number n := by
    change (String.ofList n.repr.toList).toInt? = some n
    rw [String.ofList_toList, Int.toInt?_repr]

/-- Whatever a code is, its team is that of its payload, with the password of now; no code has two
teams or two passwords. A code that is issued opens its team for a day, while the password stays. -/
theorem invite_codes (server : Server) :
    (server.privateKey ≠ "" → ∀ now team, ∃ code, server.getInviteCode now team = .ok code) ∧
    (∀ now team code, server.getInviteCode now team = .ok code → ∀ teams later t,
      server.loadInviteCode teams later code = .ok t ↔
        teams.find team.id = some t ∧ later ≤ now + 86400 ∧ t.password = team.password) ∧
    (∀ teams now code team, server.loadInviteCode teams now code = .ok team →
      ∃ payload signature secretKey, code = payload ++ '.' :: signature ∧
        server.teamInviteSecretKey = .ok secretKey ∧
        server.teamInviteSignature payload secretKey = .ok signature ∧
        server.Opens teams now payload secretKey team) ∧
    (∀ code teams now team teams' now' team',
      server.loadInviteCode teams now code = .ok team →
      server.loadInviteCode teams' now' code = .ok team' →
        team.id = team'.id ∧ team.password = team'.password) := by
  refine ⟨Server.getInviteCode_isOk, ?_, ?_, ?_⟩
  · intro now team code hissued teams later t
    exact Server.load_issued_iff hissued
  · intro teams now code team h
    obtain ⟨payload, signature, secretKey, hsplit, hrest⟩ := Server.loadInviteCode_eq_ok.mp h
    exact ⟨payload, signature, secretKey, splitCode_eq_some hsplit, hrest⟩
  · intro code teams now team teams' now' team' h h'
    exact Server.loadInviteCode_inj h h'

theorem invite_codes_day : ∃ code,
    readingServer.getInviteCode 1767225600 ⟨7, "seven", none, by simp⟩ = .ok code ∧
      ∀ later ≤ 1767312000, ∃ team, team.name = "seven" ∧
        readingServer.loadInviteCode ⟨[⟨7, "seven", none, by simp⟩], by simp⟩ later code =
          .ok team := by
  obtain ⟨hissue, hload, -⟩ := invite_codes readingServer
  obtain ⟨code, hcode⟩ := hissue (by decide) 1767225600 ⟨7, "seven", none, by simp⟩
  refine ⟨code, hcode, fun later hlater => ⟨⟨7, "seven", none, by simp⟩, rfl, ?_⟩⟩
  exact (hload _ _ _ hcode _ _ _).mpr ⟨rfl, hlater, rfl⟩

end Fctf.InviteCode
