import Fctf.Gateway.TcpSession
import Fctf.Lib.Run

/-!
The connections of a listener with a certificate. Whether a client speaks TLS is seen from its
first five bytes, which are read when the first of the goroutines reads or writes; a client that
does not is served as it is.
-/

namespace Fctf.TcpGateway

open Run

inductive ConnMode
  /-- `once` is not done. -/
  | undecided
  | plain
  /-- From the handshake on. -/
  | tls
  /-- `modeErr` is set. -/
  | failed
  deriving DecidableEq, Repr

/-- With a `tlsConfig`; the fields after the mode are history. -/
structure LazyGatewayConn where
  conn : Conn
  /-- The client sends no more. -/
  closed : Bool
  /-- What `bufio.Reader` has read and not given out. -/
  reader : List UInt8
  mode : ConnMode
  received : List UInt8
  /-- What the gateway got from `Read`, and what `crypto/tls` did. -/
  delivered : List UInt8
  fed : List UInt8
  /-- What the gateway gave to `Write`, and what went to the client. -/
  written : List UInt8
  sent : List UInt8

def looksLikeTLSClientHello : List UInt8 → Bool
  | b0 :: b1 :: b2 :: _ :: _ :: _ => b0 = 0x16 && b1 = 0x03 && b2 ≤ 0x04
  | _ => false

inductive MuxAction
  | arrive (arrival : Arrival)
  | close
  /-- A turn of `Peek`, or what follows it. -/
  | peek
  /-- A deadline passes while a read waits. -/
  | timeout
  /-- `Handshake` returns an error. -/
  | refuse
  | read (room : Nat)
  | write (data : List UInt8)
  /-- `crypto/tls` reads and writes its records. -/
  | feed (room : Nat)
  | record (data : List UInt8)

namespace LazyGatewayConn

def fresh : LazyGatewayConn := ⟨[], false, [], .undecided, [], [], [], [], []⟩

variable (c : LazyGatewayConn)

/-- `Read` of `bufio.Reader`: what it gives out, what it keeps and what is not read; `none`
waits. -/
def readBuffered (room : Nat) : Option (List UInt8 × List UInt8 × Conn) :=
  if room = 0 then some ([], c.reader, c.conn)
  else if c.reader ≠ [] then some (c.reader.take room, c.reader.drop room, c.conn)
  else
    -- a slice as large as the buffer is filled without it
    match c.conn.read (max room defaultBufSize) with
    | some (data, conn) => some (data.1.take room, data.1.drop room, conn)
    | none => if c.closed then some ([], [], c.conn) else none

/-- `ensureMode`, as far as one read of the connection takes it. -/
def ensureMode : Option LazyGatewayConn :=
  if c.mode ≠ .undecided then none
  else if 5 ≤ c.reader.length then
    some { c with mode := if looksLikeTLSClientHello (c.reader.take 5) then .tls else .plain }
  else
    match c.conn.read (defaultBufSize - c.reader.length) with
    | some (data, conn) => some { c with conn := conn, reader := c.reader ++ data.1 }
    | none => if c.closed then some { c with mode := .failed } else none

def step : MuxAction → Option LazyGatewayConn
  | .arrive arrival =>
    if c.closed then none
    else some { c with conn := c.conn ++ [arrival], received := c.received ++ arrival.1 }
  | .close => some { c with closed := true }
  | .peek => c.ensureMode
  | .timeout => some (if c.mode = .undecided then { c with mode := .failed } else c)
  | .refuse => if c.mode = .tls then some { c with mode := .failed } else none
  | .read room =>
    match c.mode with
    | .plain => (c.readBuffered room).map fun (data, reader, conn) =>
        { c with conn := conn, reader := reader, delivered := c.delivered ++ data }
    | .failed => some c
    | .undecided | .tls => none
  | .write data =>
    match c.mode with
    | .plain => some { c with written := c.written ++ data, sent := c.sent ++ data }
    | .failed => some c
    | .undecided | .tls => none
  | .feed room =>
    if c.mode = .tls then
      (c.readBuffered room).map fun (data, reader, conn) =>
        { c with conn := conn, reader := reader, fed := c.fed ++ data }
    else none
  | .record data => if c.mode = .tls then some { c with sent := c.sent ++ data } else none

/-! ### What sniffing leaves -/

variable {c} {d : LazyGatewayConn} {a : MuxAction}

theorem conn_bytes_append (conn : Conn) (arrival : Arrival) :
    Conn.bytes (conn ++ [arrival]) = conn.bytes ++ arrival.1 := by
  simp [Conn.bytes]

/-- Reading gives out the next bytes. -/
theorem readBuffered_bytes {room : Nat} {data reader : List UInt8} {conn : Conn}
    (h : c.readBuffered room = some (data, reader, conn)) :
    data ++ (reader ++ conn.bytes) = c.reader ++ c.conn.bytes := by
  unfold readBuffered at h
  by_cases hroom : room = 0
  · rw [if_pos hroom] at h
    cases h
    rfl
  rw [if_neg hroom] at h
  by_cases hreader : c.reader = []
  · rw [if_neg (not_not.mpr hreader)] at h
    rw [hreader, List.nil_append]
    cases hread : c.conn.read (max room defaultBufSize) with
    | some next =>
      obtain ⟨data', conn'⟩ := next
      rw [hread] at h
      cases h
      rw [← List.append_assoc, List.take_append_drop]
      exact read_bytes hread
    | none =>
      simp only [hread] at h
      split_ifs at h
      cases h
      rfl
  · rw [if_pos hreader] at h
    cases h
    rw [← List.append_assoc, List.take_append_drop]

/-- A read with room waits, or gives nothing out, only when nothing is left. -/
theorem readBuffered_nil {room : Nat} (hroom : 0 < room)
    (h : ∀ data rest, c.readBuffered room = some (data, rest) → data = []) :
    c.reader ++ c.conn.bytes = [] := by
  unfold readBuffered at h
  rw [if_neg (Nat.ne_of_gt hroom)] at h
  by_cases hreader : c.reader = []
  · rw [if_neg (not_not.mpr hreader)] at h
    rw [hreader, List.nil_append]
    cases hread : c.conn.read (max room defaultBufSize) with
    | none =>
      cases hconn : c.conn with
      | nil => rfl
      | cons arrival conn =>
        rw [hconn] at hread
        cases hread
    | some next =>
      obtain ⟨data, conn⟩ := next
      have hdata : data.1 ≠ [] := read_ne_nil (Nat.lt_of_lt_of_le hroom (le_max_left _ _)) hread
      have htake : data.1.take room = [] :=
        h (data.1.take room) (data.1.drop room, conn) (by simp [hread])
      rcases List.take_eq_nil_iff.mp htake with hzero | hnil
      · omega
      · exact absurd hnil hdata
  · rw [if_pos hreader] at h
    rcases List.take_eq_nil_iff.mp (h _ _ rfl) with hzero | hnil
    · omega
    · exact absurd hnil hreader

/-- What holds of a connection all the time. -/
structure Inv (c : LazyGatewayConn) : Prop where
  lossless : c.delivered ++ (c.fed ++ (c.reader ++ c.conn.bytes)) = c.received
  undecided : c.mode = .undecided → c.delivered = [] ∧ c.fed = [] ∧ c.written = [] ∧ c.sent = []
  plain : c.mode = .plain → 5 ≤ c.received.length ∧
    looksLikeTLSClientHello (c.received.take 5) = false ∧ c.fed = [] ∧ c.sent = c.written
  tls : c.mode = .tls → 5 ≤ c.received.length ∧
    looksLikeTLSClientHello (c.received.take 5) = true
  secret : c.mode ≠ .plain → c.delivered = [] ∧ c.written = []
  waits : c.received.length < 5 → c.sent = []

theorem Inv.arrive (h : Inv c) (arrival : Arrival) :
    Inv { c with conn := c.conn ++ [arrival], received := c.received ++ arrival.1 } := by
  have htake (hlong : 5 ≤ c.received.length) :
      (c.received ++ arrival.1).take 5 = c.received.take 5 := List.take_append_of_le_length hlong
  constructor
  · simp only [conn_bytes_append, ← h.lossless, List.append_assoc]
  · exact h.undecided
  · intro hmode
    obtain ⟨hlong, hlooks, hrest⟩ := h.plain hmode
    refine ⟨?_, ?_, hrest⟩
    · rw [List.length_append]
      omega
    · rw [htake hlong]
      exact hlooks
  · intro hmode
    obtain ⟨hlong, hlooks⟩ := h.tls hmode
    refine ⟨?_, ?_⟩
    · rw [List.length_append]
      omega
    · rw [htake hlong]
      exact hlooks
  · exact h.secret
  · intro hshort
    rw [List.length_append] at hshort
    exact h.waits (by omega)

theorem Inv.fail (h : Inv c) (hmode : c.mode ≠ .plain) : Inv { c with mode := .failed } := by
  refine ⟨h.lossless, ?_, ?_, ?_, fun _ => h.secret hmode, h.waits⟩
  all_goals
    intro hother
    cases hother

/-- The first five bytes are still in the buffer when they decide. -/
theorem Inv.take_received (h : Inv c) (hmode : c.mode = .undecided) (hlong : 5 ≤ c.reader.length) :
    5 ≤ c.received.length ∧ c.received.take 5 = c.reader.take 5 := by
  obtain ⟨hdelivered, hfed, -, -⟩ := h.undecided hmode
  have hreceived : c.received = c.reader ++ c.conn.bytes := by
    rw [← h.lossless, hdelivered, hfed]
    rfl
  rw [hreceived, List.length_append, List.take_append_of_le_length hlong]
  exact ⟨by omega, rfl⟩

theorem Inv.ensureMode (h : Inv c) (hstep : c.ensureMode = some d) : Inv d := by
  unfold LazyGatewayConn.ensureMode at hstep
  by_cases hmode : c.mode = .undecided
  swap
  · rw [if_pos hmode] at hstep
    cases hstep
  rw [if_neg (not_not.mpr hmode)] at hstep
  obtain ⟨hdelivered, hfed, hwritten, hsent⟩ := h.undecided hmode
  by_cases hlong : 5 ≤ c.reader.length
  · obtain ⟨hlength, htake⟩ := h.take_received hmode hlong
    rw [if_pos hlong] at hstep
    cases hlooks : looksLikeTLSClientHello (c.reader.take 5) with
    | true =>
      rw [hlooks] at hstep
      cases hstep
      refine ⟨h.lossless, ?_, ?_, fun _ => ⟨hlength, ?_⟩, fun _ => ⟨hdelivered, hwritten⟩, h.waits⟩
      · intro hother
        cases hother
      · intro hother
        cases hother
      · rw [htake, hlooks]
    | false =>
      rw [hlooks] at hstep
      cases hstep
      refine ⟨h.lossless, ?_, fun _ => ⟨hlength, ?_, hfed, hsent.trans hwritten.symm⟩, ?_,
        fun _ => ⟨hdelivered, hwritten⟩, h.waits⟩
      · intro hother
        cases hother
      · rw [htake, hlooks]
      · intro hother
        cases hother
  · rw [if_neg hlong] at hstep
    cases hread : c.conn.read (defaultBufSize - c.reader.length) with
    | some next =>
      obtain ⟨data, conn⟩ := next
      rw [hread] at hstep
      cases hstep
      refine ⟨?_, h.undecided, h.plain, h.tls, h.secret, h.waits⟩
      simp only [← h.lossless, ← read_bytes hread, List.append_assoc]
    | none =>
      simp only [hread] at hstep
      split_ifs at hstep
      cases hstep
      exact h.fail (by simp [hmode])

theorem Inv.step (h : Inv c) (hstep : c.step a = some d) : Inv d := by
  cases a with
  | arrive arrival =>
    simp only [LazyGatewayConn.step] at hstep
    split_ifs at hstep
    cases hstep
    exact h.arrive arrival
  | close =>
    cases hstep
    exact ⟨h.lossless, h.undecided, h.plain, h.tls, h.secret, h.waits⟩
  | peek => exact h.ensureMode hstep
  | timeout =>
    simp only [LazyGatewayConn.step, Option.some.injEq] at hstep
    split_ifs at hstep with hmode
    · subst hstep
      exact h.fail (by simp [hmode])
    · exact hstep ▸ h
  | refuse =>
    simp only [LazyGatewayConn.step] at hstep
    split_ifs at hstep with hmode
    cases hstep
    exact h.fail (by simp [hmode])
  | read room =>
    cases hmode : c.mode with
    | undecided => simp [LazyGatewayConn.step, hmode] at hstep
    | tls => simp [LazyGatewayConn.step, hmode] at hstep
    | failed =>
      simp only [LazyGatewayConn.step, hmode, Option.some.injEq] at hstep
      exact hstep ▸ h
    | plain =>
      simp only [LazyGatewayConn.step, hmode] at hstep
      obtain ⟨⟨data, reader, conn⟩, hread, rfl⟩ := Option.map_eq_some_iff.mp hstep
      obtain ⟨hlong, hlooks, hfed, hsent⟩ := h.plain hmode
      refine ⟨?_, ?_, fun _ => ⟨hlong, hlooks, hfed, hsent⟩, ?_, ?_, h.waits⟩
      · simp only [← h.lossless, ← readBuffered_bytes hread, hfed, List.nil_append,
          List.append_assoc]
      · intro hother
        cases hother
      · intro hother
        cases hother
      · exact fun hother => absurd rfl hother
  | write data =>
    cases hmode : c.mode with
    | undecided => simp [LazyGatewayConn.step, hmode] at hstep
    | tls => simp [LazyGatewayConn.step, hmode] at hstep
    | failed =>
      simp only [LazyGatewayConn.step, hmode, Option.some.injEq] at hstep
      exact hstep ▸ h
    | plain =>
      simp only [LazyGatewayConn.step, hmode, Option.some.injEq] at hstep
      subst hstep
      obtain ⟨hlong, hlooks, hfed, hsent⟩ := h.plain hmode
      refine ⟨h.lossless, ?_, fun _ => ⟨hlong, hlooks, hfed, ?_⟩, ?_, ?_, ?_⟩
      · intro hother
        cases hother
      · simp only [hsent]
      · intro hother
        cases hother
      · exact fun hother => absurd rfl hother
      · exact fun hshort => absurd hlong (Nat.not_le_of_lt hshort)
  | feed room =>
    simp only [LazyGatewayConn.step] at hstep
    split_ifs at hstep with hmode
    obtain ⟨⟨data, reader, conn⟩, hread, rfl⟩ := Option.map_eq_some_iff.mp hstep
    refine ⟨?_, ?_, ?_, h.tls, h.secret, h.waits⟩
    · simp only [← h.lossless, ← readBuffered_bytes hread, List.append_assoc]
    · intro hother
      cases hmode.symm.trans hother
    · intro hother
      cases hmode.symm.trans hother
  | record data =>
    simp only [LazyGatewayConn.step] at hstep
    split_ifs at hstep with hmode
    cases hstep
    refine ⟨h.lossless, ?_, ?_, h.tls, h.secret, ?_⟩
    · intro hother
      cases hmode.symm.trans hother
    · intro hother
      cases hmode.symm.trans hother
    · exact fun hshort => absurd (h.tls hmode).1 (Nat.not_le_of_lt hshort)

theorem Inv.fresh : Inv fresh := by
  refine ⟨rfl, fun _ => ⟨rfl, rfl, rfl, rfl⟩, ?_, ?_, fun _ => ⟨rfl, rfl⟩, fun _ => rfl⟩
  · intro hother
    cases hother
  · intro hother
    cases hother

/-- However the bytes of a client are cut up and whoever reads or writes first: sniffing loses
none of them and keeps their order, the first five decide alone, and nothing goes to the client
before they are there. A client that does not speak TLS has all its bytes read by the gateway and
is sent what the gateway writes; of one that does, the gateway sees nothing that is not decrypted,
and writes nothing that is not encrypted. -/
theorem sniffing_transparent (h : Reach step always fresh c) :
    c.delivered ++ (c.fed ++ (c.reader ++ c.conn.bytes)) = c.received ∧
      (c.received.length < 5 → c.delivered = [] ∧ c.sent = []) ∧
      (c.mode = .plain → looksLikeTLSClientHello (c.received.take 5) = false ∧
        c.sent = c.written ∧ c.delivered <+: c.received ∧
        ∀ room, 0 < room → (∀ d, c.step (.read room) = some d → d.delivered = c.delivered) →
          c.delivered = c.received) ∧
      (c.mode = .tls → looksLikeTLSClientHello (c.received.take 5) = true ∧
        c.delivered = [] ∧ c.written = [] ∧ c.fed <+: c.received) := by
  have hinv : Inv c := h.invariant Inv .fresh fun c a d hinv _ hstep => hinv.step hstep
  refine ⟨hinv.lossless, ?_, ?_, ?_⟩
  · intro hshort
    refine ⟨?_, hinv.waits hshort⟩
    by_cases hmode : c.mode = .plain
    · exact absurd (hinv.plain hmode).1 (Nat.not_le_of_lt hshort)
    · exact (hinv.secret hmode).1
  · intro hmode
    obtain ⟨-, hlooks, hfed, hsent⟩ := hinv.plain hmode
    have hlossless := hinv.lossless
    rw [hfed, List.nil_append] at hlossless
    refine ⟨hlooks, hsent, ⟨_, hlossless⟩, ?_⟩
    intro room hroom hstuck
    have hnil : c.reader ++ c.conn.bytes = [] := by
      apply readBuffered_nil hroom
      intro data rest hread
      obtain ⟨reader, conn⟩ := rest
      have hstep : c.step (.read room) = some { c with
          conn := conn, reader := reader, delivered := c.delivered ++ data } := by
        simp only [step, hmode, hread, Option.map_some]
      exact List.append_right_eq_self.mp (hstuck _ hstep)
    rw [← hlossless, hnil, List.append_nil]
  · intro hmode
    obtain ⟨-, hlooks⟩ := hinv.tls hmode
    obtain ⟨hdelivered, hwritten⟩ := hinv.secret (by simp [hmode])
    have hlossless := hinv.lossless
    rw [hdelivered, List.nil_append] at hlossless
    exact ⟨hlooks, hdelivered, hwritten, ⟨_, hlossless⟩⟩

/-- The bytes of `GET /` in two parts, and an answer. -/
def plainClient : List MuxAction :=
  [.arrive ⟨[0x47, 0x45], by decide⟩, .peek, .arrive ⟨[0x54, 0x20, 0x2F], by decide⟩, .peek, .peek,
    .read 4, .write [0x48, 0x54], .read 4]

theorem sniffing_transparent_plain : ∃ c : LazyGatewayConn,
    c.delivered = [0x47, 0x45, 0x54, 0x20, 0x2F] ∧ c.mode = .plain ∧ c.sent = c.written ∧
      c.delivered <+: c.received := by
  obtain ⟨c, hreach, hc⟩ := exists_reach_of_exec step always fresh plainClient
    (p := fun c => c.delivered == [0x47, 0x45, 0x54, 0x20, 0x2F] && c.mode == .plain)
    (meets_always _ _ _) (by decide +kernel)
  obtain ⟨hdelivered, hmode⟩ := (Bool.and_eq_true _ _).mp hc
  have hplain := (sniffing_transparent hreach).2.2.1 (beq_iff_eq.mp hmode)
  exact ⟨c, beq_iff_eq.mp hdelivered, beq_iff_eq.mp hmode, hplain.2.1, hplain.2.2.1⟩

end LazyGatewayConn

end Fctf.TcpGateway
