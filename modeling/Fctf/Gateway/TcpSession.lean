import Fctf.Gateway.ProxyCopy
import Fctf.Gateway.Route

/-!
A TCP session from the first byte of the client. The line with the token is read through a buffer,
the rest by the loop that copies it to the challenge server. What the buffer has beyond the line
is thrown away with it.
-/

namespace Fctf.TcpGateway

open ProxyCopy

/-- Bytes that arrive together. -/
abbrev Arrival := { bytes : List UInt8 // bytes ≠ [] }

/-- What a client that stays connected has sent and is not read yet. -/
abbrev Conn := List Arrival

def Conn.bytes (conn : Conn) : List UInt8 := conn.flatMap Subtype.val

/-- `Read` into a slice with so much room; `none` waits. -/
def Conn.read (room : Nat) : Conn → Option ({ data : List UInt8 // data.length ≤ room } × Conn)
  | [] => none
  | arrival :: conn =>
    some (⟨arrival.1.take room, List.length_take_le room arrival.1⟩,
      if h : arrival.1.drop room = [] then conn else ⟨arrival.1.drop room, h⟩ :: conn)

def newline : UInt8 := 10

def tcpMaxAuthTokenBytes : Nat := 1024

/-- The buffer of `bufio.NewReader`. -/
def defaultBufSize : Nat := 4096

/-! ### The token -/

inductive LineRead
  /-- The line, what the buffer has after it, and what is not read. -/
  | line (input lost : List UInt8) (conn : Conn)
  | eof (input : List UInt8)
  | timeout

/-- `ReadString('\n')` on a reader that reads no more than `remaining` bytes. -/
def readString : Nat → Nat → List UInt8 → Conn → LineRead
  | 0, _, _, _ => .timeout
  | turns + 1, remaining, buffered, conn =>
    if newline ∈ buffered then
      .line (buffered.takeWhile (· ≠ newline) ++ [newline])
        ((buffered.dropWhile (· ≠ newline)).drop 1) conn
    else if remaining = 0 then .eof buffered
    else
      match conn.read (min (defaultBufSize - buffered.length) remaining) with
      | none => .timeout
      | some (data, conn) =>
        readString turns (remaining - data.1.length) (buffered ++ data.1) conn

/-- A line that long is read in that many turns, as each of them reads something. -/
def readTokenLine (conn : Conn) : LineRead :=
  readString (tcpMaxAuthTokenBytes + 2) (tcpMaxAuthTokenBytes + 1) [] conn

/-- The secrets of the gateway, its clock, and what it is answered by the limiters, by Redis and
by the challenge server. -/
structure Gateway where
  platform : TokenPlatform
  authTimeoutSeconds : Nat
  now : Int
  tcpRateAllow : String → Bool
  tcpTokenConnAcquire : String → Bool
  accessCheck : String → Payload → Bool
  dial : List Char → Bool
  /-- The clock once the server is dialed. -/
  afterDial : Int
  tcpCopyBufBytes : Int64

namespace Gateway

variable (gateway : Gateway)

/-- `TrimSpace` and `Verify` on what has been read. -/
def verifyInput (input : List UInt8) : Except String (Payload × String) :=
  if tcpMaxAuthTokenBytes < input.length then .error "token too long"
  else
    let tok := trim (String.ofList (decodeUtf8 input))
    if tok = "" then .error "empty token"
    else (gateway.platform.verify gateway.now tok).map fun payload => (payload, tok)

/-- With what the connection has left, but for the bytes in the buffer. -/
def authenticateTCPClient (conn : Conn) : Except String ((Payload × String) × Conn) :=
  match readTokenLine conn with
  | .timeout => .error "authentication timed out"
  | .eof input => .error (if tcpMaxAuthTokenBytes < input.length then "token too long" else "EOF")
  | .line input _ conn => (gateway.verifyInput input).map fun auth => (auth, conn)

/-! ### The session -/

def copyBufBytes : Nat :=
  if 0 < gateway.tcpCopyBufBytes then gateway.tcpCopyBufBytes.toInt.toNat else 32 * 1024

theorem copyBufBytes_spec : 0 < gateway.copyBufBytes ∧ gateway.copyBufBytes < 2 ^ 63 := by
  have hlt := gateway.tcpCopyBufBytes.toInt_lt
  rw [copyBufBytes]
  split_ifs with hpos
  · have hpos' : 0 < gateway.tcpCopyBufBytes.toInt := Int64.lt_iff_toInt_lt.mp hpos
    omega
  · decide

/-- The reads of the loop up to the one that waits; the server takes everything. -/
def chunks : Nat → Conn → List Chunk
  | 0, _ => []
  | turns + 1, conn =>
    match conn.read gateway.copyBufBytes with
    | none => []
    | some (data, conn) =>
      ⟨data.1, none, Nat.lt_of_le_of_lt data.2 gateway.copyBufBytes_spec.2⟩ :: chunks turns conn

/-- What the client is told, and what the challenge server gets while neither side closes:
`none` if it is not connected. -/
structure Outcome where
  toClient : List String
  toServer : Option (List UInt8)
  deriving DecidableEq

/-- `hash` is `hashToken` of the token. -/
def rateLimitKey (hash clientIP : String) : String :=
  if hash ≠ "" ∧ clientIP ≠ "" then "tok:" ++ hash ++ ":ip:" ++ clientIP
  else if hash ≠ "" then "tok:" ++ hash
  else clientIP

/-- What the client is asked for. -/
def prompt : String :=
  let timeout := if gateway.authTimeoutSeconds = 0 then 10 else gateway.authTimeoutSeconds
  "\n--- CTF AUTHENTICATION ---\nPlease enter your token (Timeout " ++ toString timeout ++ "s): "

def handleTCPConnection (hashToken : String → String) (clientIP : String) (conn : Conn) :
    Outcome :=
  let prompt := gateway.prompt
  match gateway.authenticateTCPClient conn with
  | .error _ => ⟨[prompt, "Auth failed!\n"], none⟩
  | .ok ((payload, tok), conn) =>
    if !gateway.tcpRateAllow (rateLimitKey (hashToken tok) clientIP) then
      ⟨[prompt, "Rate limit exceeded\n"], none⟩
    else if !gateway.tcpTokenConnAcquire tok then
      ⟨[prompt, "Too many connections for token\n"], none⟩
    else if !gateway.accessCheck tok payload then
      ⟨[prompt, "Challenge session is unavailable or has ended\n"], none⟩
    else
      let host := expandRoute payload.route.toList
      let granted := "Access Granted! Connecting to challenge...\n"
      if !gateway.dial host then
        ⟨[prompt, granted, "[!] Could not connect to challenge server.\n"], none⟩
      else if payload.exp ≤ gateway.afterDial then ⟨[prompt, granted], none⟩
      else
        let sampleLimit := 32768
        let copy := copyLoop sampleLimit none {} (gateway.chunks (Conn.bytes conn).length conn)
        ⟨[prompt, granted], some copy.1.written⟩

end Gateway

/-! ### Reading -/

theorem read_bytes {room : Nat} {conn rest : Conn}
    {data : { data : List UInt8 // data.length ≤ room }} (h : conn.read room = some (data, rest)) :
    data.1 ++ rest.bytes = conn.bytes := by
  cases conn with
  | nil => cases h
  | cons arrival conn =>
    obtain ⟨rfl, rfl⟩ := Prod.mk.inj (Option.some.inj h)
    have hbytes : Conn.bytes (arrival :: conn) = arrival.1 ++ Conn.bytes conn := rfl
    split_ifs with hwhole
    · have htake : arrival.1.take room = arrival.1 :=
        List.take_of_length_le (List.drop_eq_nil_iff.mp hwhole)
      simp only [hbytes, htake]
    · have hrest : Conn.bytes (⟨arrival.1.drop room, hwhole⟩ :: conn) =
          arrival.1.drop room ++ Conn.bytes conn := rfl
      rw [hrest, hbytes, ← List.append_assoc, List.take_append_drop]

/-- A read that has room reads something. -/
theorem read_ne_nil {room : Nat} (hroom : 0 < room) {conn rest : Conn}
    {data : { data : List UInt8 // data.length ≤ room }} (h : conn.read room = some (data, rest)) :
    data.1 ≠ [] := by
  cases conn with
  | nil => cases h
  | cons arrival conn =>
    obtain ⟨rfl, -⟩ := Prod.mk.inj (Option.some.inj h)
    intro hempty
    rcases List.take_eq_nil_iff.mp hempty with hzero | hnil
    · omega
    · exact arrival.2 hnil

/-- The loop reads everything that arrives, however small its buffer. -/
theorem chunks_data (gateway : Gateway) {turns : Nat} {conn : Conn}
    (h : conn.bytes.length ≤ turns) :
    (gateway.chunks turns conn).flatMap Chunk.data = conn.bytes := by
  induction turns generalizing conn with
  | zero => exact (List.eq_nil_of_length_eq_zero (Nat.le_zero.mp h)).symm
  | succ turns ih =>
    rw [Gateway.chunks]
    cases hread : conn.read gateway.copyBufBytes with
    | none =>
      cases conn with
      | nil => rfl
      | cons arrival conn => cases hread
    | some next =>
      obtain ⟨data, rest⟩ := next
      have hbytes := read_bytes hread
      have hpos := List.length_pos_of_ne_nil (read_ne_nil gateway.copyBufBytes_spec.1 hread)
      have hrest : rest.bytes.length ≤ turns := by
        rw [← hbytes, List.length_append] at h
        omega
      simp only [List.flatMap_cons, ih hrest]
      exact hbytes

theorem untilFailure_chunks (gateway : Gateway) (turns : Nat) (conn : Conn) :
    untilFailure (gateway.chunks turns conn) = gateway.chunks turns conn ∧
      ∀ chunk ∈ gateway.chunks turns conn, chunk.accepted = chunk.data := by
  induction turns generalizing conn with
  | zero => exact ⟨rfl, fun _ h => absurd h List.not_mem_nil⟩
  | succ turns ih =>
    rw [Gateway.chunks]
    cases conn.read gateway.copyBufBytes with
    | none => exact ⟨rfl, fun _ h => absurd h List.not_mem_nil⟩
    | some next =>
      have hgood : ∀ data hlt, (⟨data, none, hlt⟩ : Chunk).fails = false :=
        fun data _ => Bool.and_false _
      refine ⟨?_, ?_⟩
      · simp only [untilFailure, hgood, Bool.false_eq_true, if_false, (ih next.2).1]
      · intro chunk hchunk
        rcases List.mem_cons.mp hchunk with rfl | hlater
        · rfl
        · exact (ih next.2).2 chunk hlater

/-- The server gets what the connection has left. -/
theorem written_chunks (gateway : Gateway) (sampleLimit : Nat) (conn : Conn) :
    (copyLoop sampleLimit none {} (gateway.chunks conn.bytes.length conn)).1.written =
      conn.bytes := by
  obtain ⟨hall, haccepted⟩ := untilFailure_chunks gateway conn.bytes.length conn
  have hempty : copied sampleLimit [] [] = {} := by simp [copied]
  rw [← hempty, copyLoop_copied, List.nil_append, List.nil_append, hall]
  exact (List.flatMap_congr haccepted).trans (chunks_data gateway (Nat.le_refl _))

/-! ### The line -/

/-- The line ends where some of the arrivals end. -/
def Conn.EndsWith (conn : Conn) (buffered line : List UInt8) : Prop :=
  ∃ before after : Conn, conn = before ++ after ∧ buffered ++ before.bytes = line

theorem endsWith_cons {arrival : Arrival} {conn : Conn} {buffered line : List UInt8}
    (h : buffered ≠ line) :
    Conn.EndsWith (arrival :: conn) buffered line ↔
      conn.EndsWith (buffered ++ arrival.1) line := by
  constructor
  · rintro ⟨before, after, hconn, hline⟩
    cases before with
    | nil => exact absurd (List.append_nil buffered ▸ hline) h
    | cons first before =>
      obtain ⟨rfl, rfl⟩ := List.cons.inj hconn
      exact ⟨before, after, rfl, by rw [List.append_assoc]; exact hline⟩
  · rintro ⟨before, after, rfl, hline⟩
    exact ⟨arrival :: before, after, rfl, by rw [← hline, List.append_assoc]; rfl⟩

/-- What has been read before the end of the line is a part of the line. -/
theorem buffered_isPrefix {buffered unread body rest : List UInt8}
    (h : buffered ++ unread = body ++ newline :: rest) (hbuffered : newline ∉ buffered) :
    buffered <+: body := by
  rcases List.append_eq_append_iff.mp h with ⟨more, hbody, -⟩ | ⟨more, hmore, hrest⟩
  · exact ⟨more, hbody.symm⟩
  · cases more with
    | nil => exact ⟨[], by rw [hmore, List.append_nil, List.append_nil]⟩
    | cons first more =>
      obtain ⟨rfl, -⟩ := List.cons.inj hrest
      exact absurd (hmore ▸ by simp) hbuffered

theorem takeWhile_line {body rest : List UInt8} (h : newline ∉ body) :
    (body ++ newline :: rest).takeWhile (· ≠ newline) = body ∧
      (body ++ newline :: rest).dropWhile (· ≠ newline) = newline :: rest := by
  have hbody : ∀ b ∈ body, (decide (b ≠ newline)) = true :=
    fun b hb => decide_eq_true fun heq => h (heq ▸ hb)
  constructor
  · rw [List.takeWhile_append_of_pos hbody, List.takeWhile_cons_of_neg (by simp),
      List.append_nil]
  · rw [List.dropWhile_append_of_pos hbody, List.dropWhile_cons_of_neg (by simp)]

/-- A read that has room for more than the line moves the end of no arrival. -/
theorem endsWith_read {room : Nat} {conn unread : Conn} {buffered line : List UInt8}
    {data : { data : List UInt8 // data.length ≤ room }}
    (h : conn.read room = some (data, unread)) (hne : buffered ≠ line)
    (hroom : line.length < buffered.length + room) :
    unread.EndsWith (buffered ++ data.1) line ↔ conn.EndsWith buffered line := by
  cases conn with
  | nil => cases h
  | cons arrival conn =>
    obtain ⟨rfl, rfl⟩ := Prod.mk.inj (Option.some.inj h)
    rw [endsWith_cons hne]
    split_ifs with hwhole
    · have htake : arrival.1.take room = arrival.1 :=
        List.take_of_length_le (List.drop_eq_nil_iff.mp hwhole)
      simp only [htake]
    · have hlong : room < arrival.1.length := by
        by_contra hshort
        exact hwhole (List.drop_eq_nil_of_le (Nat.le_of_not_lt hshort))
      have hpast : buffered ++ arrival.1.take room ≠ line := by
        rintro rfl
        rw [List.length_append, List.length_take] at hroom
        omega
      rw [endsWith_cons hpast, List.append_assoc, List.take_append_drop]

/-- The line is read whatever it arrives with. What comes with its end is lost: nothing exactly if
the line ends where an arrival ends. -/
theorem readString_line {body rest : List UInt8} (hbody : newline ∉ body)
    (hlength : body.length < tcpMaxAuthTokenBytes) {turns remaining : Nat}
    {buffered : List UInt8} {conn : Conn}
    (hall : buffered ++ conn.bytes = body ++ newline :: rest)
    (hremaining : remaining = tcpMaxAuthTokenBytes + 1 - buffered.length)
    (hturns : remaining < turns) :
    ∃ lost unread,
      readString turns remaining buffered conn = .line (body ++ [newline]) lost unread ∧
        rest = lost ++ unread.bytes ∧
        (lost = [] ↔ conn.EndsWith buffered (body ++ [newline])) := by
  induction turns generalizing remaining buffered conn with
  | zero => exact absurd hturns (Nat.not_lt_zero _)
  | succ turns ih =>
    rw [readString]
    by_cases hfound : newline ∈ buffered
    · -- the newline is in the buffer, and the buffer ends behind it
      obtain ⟨lost, rfl⟩ : ∃ lost, buffered = body ++ newline :: lost := by
        rcases List.append_eq_append_iff.mp hall with ⟨more, hmore, -⟩ | ⟨more, hmore, hrest⟩
        · exact absurd (hmore ▸ List.mem_append_left more hfound) hbody
        · cases more with
          | nil => exact absurd (by simpa [hmore] using hfound) hbody
          | cons first lost =>
            obtain ⟨rfl, -⟩ := List.cons.inj hrest
            exact ⟨lost, hmore⟩
      obtain ⟨htake, hdrop⟩ := @takeWhile_line body lost hbody
      refine ⟨lost, conn, ?_, ?_, ?_⟩
      · rw [if_pos hfound, htake, hdrop, List.drop_one, List.tail_cons]
      · rw [List.append_assoc, List.append_cancel_left_eq] at hall
        exact (List.cons.inj hall).2.symm
      · constructor
        · rintro rfl
          exact ⟨[], conn, rfl, List.append_nil _⟩
        · rintro ⟨before, after, -, hline⟩
          have hlengths := congrArg List.length hline
          simp only [List.length_append, List.length_cons, List.length_nil] at hlengths
          exact List.eq_nil_of_length_eq_zero (by omega)
    · -- one more read, which has room for more than the line
      have hshort := (buffered_isPrefix hall hfound).length_le
      have hroom : min (defaultBufSize - buffered.length) remaining = remaining := by
        rw [hremaining, defaultBufSize]
        rw [tcpMaxAuthTokenBytes] at hlength ⊢
        omega
      have hpos : 0 < remaining := by omega
      have hline : buffered ≠ body ++ [newline] := fun heq => hfound (heq ▸ by simp)
      rw [if_neg hfound, if_neg (Nat.ne_of_gt hpos)]
      cases hread : conn.read (min (defaultBufSize - buffered.length) remaining) with
      | none =>
        cases conn with
        | nil =>
          have hmem : newline ∈ buffered ++ Conn.bytes [] := hall ▸ by simp
          exact absurd (by simpa [Conn.bytes] using hmem) hfound
        | cons arrival conn => cases hread
      | some next =>
        obtain ⟨data, unread⟩ := next
        have hbytes := read_bytes hread
        have hdata := List.length_pos_of_ne_nil (read_ne_nil (hroom.symm ▸ hpos) hread)
        have hends : unread.EndsWith (buffered ++ data.1) (body ++ [newline]) ↔
            conn.EndsWith buffered (body ++ [newline]) := by
          apply endsWith_read hread hline
          rw [List.length_append, List.length_singleton]
          omega
        rw [← hends]
        apply ih
        · rw [List.append_assoc, hbytes, hall]
        · rw [List.length_append]
          omega
        · omega

/-! ### Sessions -/

/-- A line with a token that the gateway accepts and connects. -/
structure Gateway.Accepts (gateway : Gateway) (hashToken : String → String) (clientIP : String)
    (line : List UInt8) (payload : Payload) (tok : String) : Prop where
  line_eq : ∃ body, newline ∉ body ∧ line = body ++ [newline]
  verified : gateway.verifyInput line = .ok (payload, tok)
  allowed : gateway.tcpRateAllow (rateLimitKey (hashToken tok) clientIP) = true
  acquired : gateway.tcpTokenConnAcquire tok = true
  accessible : gateway.accessCheck tok payload = true
  dialed : gateway.dial (expandRoute payload.route.toList) = true
  unexpired : gateway.afterDial < payload.exp

section Sessions

variable (gateway : Gateway) (hashToken : String → String) (clientIP : String)

theorem length_of_verified {line : List UInt8} {auth : Payload × String}
    (h : gateway.verifyInput line = .ok auth) : line.length ≤ tcpMaxAuthTokenBytes := by
  rw [Gateway.verifyInput] at h
  split_ifs at h with hlong
  exact Nat.le_of_not_lt hlong

/-- What a session is that gets to the server. -/
theorem handle_accepted {line rest : List UInt8} {payload : Payload} {tok : String} {conn : Conn}
    (haccepts : gateway.Accepts hashToken clientIP line payload tok)
    (hsent : conn.bytes = line ++ rest) :
    ∃ (lost : List UInt8) (unread : Conn), rest = lost ++ unread.bytes ∧
      (lost = [] ↔ conn.EndsWith [] line) ∧
      (gateway.handleTCPConnection hashToken clientIP conn).toServer = some unread.bytes := by
  obtain ⟨body, hbody, rfl⟩ := haccepts.line_eq
  have hlength := length_of_verified gateway haccepts.verified
  rw [List.length_append, List.length_singleton] at hlength
  have hsentBody : [] ++ conn.bytes = body ++ newline :: rest := by
    rw [List.nil_append, hsent, List.append_assoc]
    rfl
  obtain ⟨lost, unread, hread, hrest, hlost⟩ := readString_line hbody hlength
    hsentBody (rfl : tcpMaxAuthTokenBytes + 1 = tcpMaxAuthTokenBytes + 1 - [].length)
    (Nat.lt_succ_self (tcpMaxAuthTokenBytes + 1))
  have hauth : gateway.authenticateTCPClient conn = .ok ((payload, tok), unread) := by
    have hline : readTokenLine conn = .line (body ++ [newline]) lost unread := hread
    rw [Gateway.authenticateTCPClient, hline]
    simp only [haccepts.verified]
    rfl
  refine ⟨lost, unread, hrest, hlost, ?_⟩
  simp only [Gateway.handleTCPConnection, hauth, haccepts.allowed, haccepts.acquired,
    haccepts.accessible, haccepts.dialed, Bool.not_true, Bool.false_eq_true, if_false,
    if_neg (Int.not_le.mpr haccepts.unexpired), written_chunks]

/-- The challenge server gets the bytes after the line exactly if the line ends where what has
arrived with its end does. -/
theorem session_transparent_iff {line rest : List UInt8} {payload : Payload} {tok : String}
    {conn : Conn}
    (haccepts : gateway.Accepts hashToken clientIP line payload tok)
    (hsent : conn.bytes = line ++ rest) :
    (gateway.handleTCPConnection hashToken clientIP conn).toServer = some rest ↔
      ∃ before after : Conn, conn = before ++ after ∧ before.bytes = line := by
  obtain ⟨lost, unread, hrest, hlost, hserver⟩ :=
    handle_accepted gateway hashToken clientIP haccepts hsent
  have hends : conn.EndsWith [] line ↔
      ∃ before after : Conn, conn = before ++ after ∧ before.bytes = line := by
    simp only [Conn.EndsWith, List.nil_append]
  rw [hserver, Option.some_inj, ← hends, ← hlost, hrest]
  constructor
  · intro heq
    have hlengths := congrArg List.length heq
    rw [List.length_append] at hlengths
    exact List.eq_nil_of_length_eq_zero (by omega)
  · rintro rfl
    exact (List.nil_append _).symm

end Sessions

/-- A gateway that lets everything through, with MACs of no bytes. -/
def lenient : Gateway where
  platform := ⟨"k", fun _ _ => [], fun _ => ""⟩
  authTimeoutSeconds := 0
  now := 5
  tcpRateAllow _ := true
  tcpTokenConnAcquire _ := true
  accessCheck _ _ := true
  dial _ := true
  afterDial := 5
  tcpCopyBufBytes := 0

def payloadOfA : Payload := ⟨9, "a", ""⟩

def tokenOfA : String := "eyJleHAiOjksInJvdXRlIjoiYSIsImRlcGxveW1lbnRfa2V5IjoiIn0."

/-- The token and a line feed. -/
def tokenLine : List UInt8 :=
  [101, 121, 74, 108, 101, 72, 65, 105, 79, 106, 107, 115, 73, 110, 74, 118, 100, 88, 82, 108,
    73, 106, 111, 105, 89, 83, 73, 115, 73, 109, 82, 108, 99, 71, 120, 118, 101, 87, 49, 108, 98,
    110, 82, 102, 97, 50, 86, 53, 73, 106, 111, 105, 73, 110, 48, 46, 10]

theorem verify_tokenOfA : lenient.platform.verify lenient.now tokenOfA = .ok payloadOfA := by
  let text := "eyJleHAiOjksInJvdXRlIjoiYSIsImRlcGxveW1lbnRfa2V5IjoiIn0".toList
  have hpayload : Base64.decode urlAlphabet text = some (utf8Bytes payloadOfA.serialize) := by
    decide +kernel
  refine lenient.platform.verify_eq_ok_iff.mpr
    ⟨text, [], by decide +kernel, ⟨by decide, rfl, ?_⟩, by decide, by decide, by decide⟩
  rw [hpayload, Option.bind_some]
  exact Payload.unmarshal_serialize payloadOfA (by decide)

theorem lenient_accepts :
    lenient.Accepts (fun _ => "") "" tokenLine payloadOfA tokenOfA where
  line_eq := ⟨tokenLine.dropLast, by decide, rfl⟩
  verified := by
    have htok : trim (String.ofList (decodeUtf8 tokenLine)) = tokenOfA := by decide +kernel
    rw [Gateway.verifyInput, if_neg (by decide), htok, if_neg (by decide), verify_tokenOfA]
    rfl
  allowed := rfl
  acquired := rfl
  accessible := rfl
  dialed := rfl
  unexpired := by decide

/-- Typed after the token, a text gets through. -/
theorem transparent_typed :
    (lenient.handleTCPConnection (fun _ => "") "" [⟨tokenLine, by decide⟩,
      ⟨[104, 105], by decide⟩]).toServer = some [104, 105] := by
  apply (session_transparent_iff lenient (fun _ => "") "" lenient_accepts rfl).mpr
  exact ⟨[⟨tokenLine, by decide⟩], [⟨[104, 105], by decide⟩], rfl, by decide⟩

/-- Sent together with the token, it does not. -/
theorem loses_what_follows : ¬ ∀ (gateway : Gateway) (hashToken : String → String)
    (clientIP : String) (line rest : List UInt8) (payload : Payload) (tok : String) (conn : Conn),
    gateway.Accepts hashToken clientIP line payload tok → conn.bytes = line ++ rest →
    (gateway.handleTCPConnection hashToken clientIP conn).toServer = some rest := by
  intro h
  let both : Arrival := ⟨tokenLine ++ [104, 105], by decide⟩
  have hserver := h lenient (fun _ => "") "" tokenLine [104, 105] payloadOfA tokenOfA [both]
    lenient_accepts rfl
  obtain ⟨lost, unread, hrest, hlost, hunread⟩ :=
    handle_accepted lenient (fun _ => "") "" lenient_accepts
      (rfl : Conn.bytes [both] = tokenLine ++ [104, 105])
  have hall : unread.bytes = [104, 105] := Option.some.inj (hunread.symm.trans hserver)
  have hnone : lost = [] := by
    rw [hall] at hrest
    exact List.self_eq_append_left.mp hrest
  obtain ⟨before, after, hconn, hline⟩ := hlost.mp hnone
  cases before with
  | nil => exact absurd hline (by decide)
  | cons first before =>
    obtain ⟨rfl, hnil⟩ := List.cons.inj hconn
    obtain ⟨rfl, -⟩ := List.append_eq_nil_iff.mp hnil.symm
    exact absurd hline (by decide)

end Fctf.TcpGateway
