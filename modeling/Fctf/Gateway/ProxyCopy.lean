import Fctf.Gateway.Token

/-!
The copy between the two connections of a TCP session, in one direction. What it reads in one
piece it counts, puts into the sample and writes, in this order.
-/

namespace Fctf.ProxyCopy

/-- The sum of two numbers of type `int64`. -/
def addInt64 (a b : Int) : Int := (a + b).bmod (2 ^ 64)

/-- What one `Read` gives, with the answer of the `Write` that it is passed to: the number of bytes
that are taken and the error, if there is one. The length is an `int`. -/
structure Chunk where
  data : List UInt8
  writeErr : Option (Nat × String) := none
  length_lt : data.length < 2 ^ 63

/-- The bytes that the destination takes. -/
def Chunk.accepted (chunk : Chunk) : List UInt8 :=
  match chunk.writeErr with
  | none => chunk.data
  | some (n, _) => chunk.data.take n

/-- Reads without an error, and the last one, which comes with an error: `none` is `io.EOF`. -/
structure Stream where
  chunks : List Chunk
  last : Chunk
  readErr : Option String

/-- The variables of the loop, and what has been written. -/
structure Copy where
  written : List UInt8 := []
  bytesCopied : Int := 0
  sample : List UInt8 := []

/-- The sample after `data`. -/
def addSample (sampleLimit : Nat) (sample data : List UInt8) : List UInt8 :=
  if 0 < sampleLimit ∧ sample.length < sampleLimit then
    let remain := sampleLimit - sample.length
    if data.length < remain then sample ++ data else sample ++ data.take remain
  else sample

/-- The body of the loop, with the error of the write. -/
def Copy.next (sampleLimit : Nat) (c : Copy) (chunk : Chunk) : Copy × Option String :=
  if 0 < chunk.data.length then
    (⟨c.written ++ chunk.accepted, addInt64 c.bytesCopied chunk.data.length,
      addSample sampleLimit c.sample chunk.data⟩, chunk.writeErr.map Prod.snd)
  else (c, none)

/-- The loop, with the error that it ends with. -/
def copyLoop (sampleLimit : Nat) (readErr : Option String) :
    Copy → List Chunk → Copy × Option String
  | c, [] => (c, readErr)
  | c, chunk :: chunks =>
    match c.next sampleLimit chunk with
    | (c, none) => copyLoop sampleLimit readErr c chunks
    | (c, some writeErr) => (c, some writeErr)

structure Outcome where
  written : List UInt8
  bytesCopied : Int
  sampleB64 : List Char
  err : Option String
  deriving DecidableEq

def proxyCopyWithSample (stream : Stream) (sampleLimit : Int) : Outcome :=
  let sampleLimit := if sampleLimit < 0 then 0 else sampleLimit
  let (c, err) :=
    copyLoop sampleLimit.toNat stream.readErr {} (stream.chunks ++ [stream.last])
  let sampleB64 := if 0 < c.sample.length then Base64.encode standardAlphabet c.sample else []
  ⟨c.written, c.bytesCopied, sampleB64, err⟩

/-! ### What a copy is to do -/

/-- The write of the chunk fails. -/
def Chunk.fails (chunk : Chunk) : Bool := !chunk.data.isEmpty && chunk.writeErr.isSome

/-- What is read: up to the first write that fails. -/
def untilFailure : List Chunk → List Chunk
  | [] => []
  | chunk :: chunks => chunk :: if chunk.fails then [] else untilFailure chunks

namespace Stream

variable (stream : Stream)

def read : List Chunk := untilFailure (stream.chunks ++ [stream.last])

def received : List UInt8 := stream.read.flatMap Chunk.data

def delivered : List UInt8 := stream.read.flatMap Chunk.accepted

/-- The destination gets the bytes that are read as far as it takes them, and the number and the
sample are those of its bytes. -/
def Transparent (sampleLimit : Int) : Prop :=
  let outcome := proxyCopyWithSample stream sampleLimit
  outcome.written = stream.delivered ∧
    outcome.bytesCopied = stream.delivered.length ∧
    outcome.sampleB64 =
      Base64.encode standardAlphabet (stream.delivered.take sampleLimit.toNat)

end Stream

/-! ### The loop -/

section Loop

variable {sampleLimit : Nat}

theorem accepted_eq_of_not_fails {chunk : Chunk} (h : chunk.fails = false) :
    chunk.accepted = chunk.data := by
  unfold Chunk.accepted
  cases hwrite : chunk.writeErr with
  | none => rfl
  | some answer =>
    have hempty : chunk.data = [] := by simpa [Chunk.fails, hwrite] using h
    simp [hempty]

/-- The sample is always what fits of what has been read. -/
theorem addSample_take (received data : List UInt8) :
    addSample sampleLimit (received.take sampleLimit) data =
      (received ++ data).take sampleLimit := by
  simp only [addSample, List.take_append, List.length_take]
  split_ifs with hroom hshort
  · rw [List.take_of_length_le (by omega : data.length ≤ sampleLimit - received.length)]
  · have hremain : sampleLimit - min sampleLimit received.length =
        sampleLimit - received.length := by omega
    rw [hremain]
  · have hfull : sampleLimit - received.length = 0 := by omega
    rw [hfull, List.take_zero, List.append_nil]

theorem addInt64_length (received data : List UInt8) :
    addInt64 ((received.length : Int).bmod (2 ^ 64)) data.length =
      ((received ++ data).length : Int).bmod (2 ^ 64) := by
  rw [addInt64, List.length_append, Int.natCast_add]
  exact Int.bmod_add_bmod

/-- What the loop has when it has read `received` and written `written`. -/
def copied (sampleLimit : Nat) (received written : List UInt8) : Copy :=
  ⟨written, (received.length : Int).bmod (2 ^ 64), received.take sampleLimit⟩

/-- One turn of the loop counts, samples and writes the chunk. -/
theorem next_copied (received written : List UInt8) (chunk : Chunk) :
    (copied sampleLimit received written).next sampleLimit chunk =
      (copied sampleLimit (received ++ chunk.data) (written ++ chunk.accepted),
        if chunk.fails then chunk.writeErr.map Prod.snd else none) := by
  by_cases hdata : chunk.data = []
  · have haccepted : chunk.accepted = [] := by
      rw [accepted_eq_of_not_fails (by simp [Chunk.fails, hdata]), hdata]
    simp [Copy.next, Chunk.fails, hdata, haccepted]
  · have hpos : 0 < chunk.data.length := List.length_pos_of_ne_nil hdata
    have herr : (if chunk.fails then chunk.writeErr.map Prod.snd else none) =
        chunk.writeErr.map Prod.snd := by
      cases hwrite : chunk.writeErr <;> simp [Chunk.fails, hdata, hwrite]
    rw [herr, Copy.next, if_pos hpos, copied, addInt64_length, addSample_take]
    rfl

/-- The loop, by induction on what there is to read. -/
theorem copyLoop_copied (sampleLimit : Nat) (readErr : Option String)
    (received written : List UInt8) (chunks : List Chunk) :
    (copyLoop sampleLimit readErr (copied sampleLimit received written) chunks).1 =
      copied sampleLimit (received ++ (untilFailure chunks).flatMap Chunk.data)
        (written ++ (untilFailure chunks).flatMap Chunk.accepted) := by
  induction chunks generalizing received written with
  | nil => simp [copyLoop, untilFailure]
  | cons chunk chunks ih =>
    rw [copyLoop, next_copied, untilFailure]
    cases hfails : chunk.fails with
    | false => simp [ih, List.append_assoc]
    | true =>
      obtain ⟨answer, hwrite⟩ : ∃ answer, chunk.writeErr = some answer := by
        simp only [Chunk.fails, Bool.and_eq_true] at hfails
        exact Option.isSome_iff_exists.mp hfails.2
      simp [hwrite]

end Loop

/-! ### What is not written -/

theorem accepted_isPrefix (chunk : Chunk) : chunk.accepted <+: chunk.data := by
  unfold Chunk.accepted
  split
  · exact List.prefix_refl _
  · exact List.take_prefix _ _

/-- Only the last chunk that is read can be missing something. -/
theorem received_lt (chunks : List Chunk) :
    ((untilFailure chunks).flatMap Chunk.data).length <
      ((untilFailure chunks).flatMap Chunk.accepted).length + 2 ^ 63 := by
  induction chunks with
  | nil => simp [untilFailure]
  | cons chunk chunks ih =>
    have hlength := chunk.length_lt
    rw [untilFailure]
    cases hfails : chunk.fails with
    | false =>
      simp only [Bool.false_eq_true, if_false, List.flatMap_cons, List.length_append,
        accepted_eq_of_not_fails hfails]
      omega
    | true =>
      simp only [if_true, List.flatMap_cons, List.flatMap_nil, List.append_nil]
      omega

theorem length_accepted_le (chunks : List Chunk) :
    (chunks.flatMap Chunk.accepted).length ≤ (chunks.flatMap Chunk.data).length := by
  induction chunks with
  | nil => exact Nat.le_refl 0
  | cons chunk chunks ih =>
    have hfirst := (accepted_isPrefix chunk).length_le
    simp only [List.flatMap_cons, List.length_append]
    omega

/-- As many bytes are taken as there are exactly when all are. -/
theorem length_accepted_eq_iff (chunks : List Chunk) :
    (chunks.flatMap Chunk.accepted).length = (chunks.flatMap Chunk.data).length ↔
      ∀ chunk ∈ chunks, chunk.accepted = chunk.data := by
  induction chunks with
  | nil => simp
  | cons chunk chunks ih =>
    have hfirst := (accepted_isPrefix chunk).length_le
    have hrest := length_accepted_le chunks
    have hwhole : chunk.accepted.length = chunk.data.length ↔ chunk.accepted = chunk.data :=
      ⟨(accepted_isPrefix chunk).eq_of_length, congrArg List.length⟩
    rw [List.forall_mem_cons]
    refine Iff.trans ?_ (and_congr hwhole ih)
    simp only [List.flatMap_cons, List.length_append]
    omega

/-- The counter does not count what is missing as long as it does not overflow. -/
theorem bmod_eq_iff {received delivered : Nat} (hle : delivered ≤ received)
    (hlt : received < delivered + 2 ^ 63) :
    (received : Int).bmod (2 ^ 64) = delivered ↔ received = delivered ∧ received < 2 ^ 63 := by
  rw [Int.bmod_def]
  split_ifs <;> omega

namespace Stream

variable (stream : Stream)

theorem proxyCopyWithSample_eq (sampleLimit : Int) :
    ∃ err, proxyCopyWithSample stream sampleLimit =
      ⟨stream.delivered, (stream.received.length : Int).bmod (2 ^ 64),
        Base64.encode standardAlphabet (stream.received.take sampleLimit.toNat), err⟩ := by
  have hlimit : (if sampleLimit < 0 then 0 else sampleLimit).toNat = sampleLimit.toNat := by
    split_ifs <;> omega
  have hloop : (copyLoop sampleLimit.toNat stream.readErr {}
      (stream.chunks ++ [stream.last])).1 =
        copied sampleLimit.toNat stream.received stream.delivered := by
    have hempty : copied sampleLimit.toNat [] [] = {} := by simp [copied]
    rw [← hempty, copyLoop_copied, List.nil_append, List.nil_append]
    rfl
  have hencode : ∀ sample : List UInt8,
      (if 0 < sample.length then Base64.encode standardAlphabet sample else []) =
        Base64.encode standardAlphabet sample := by
    intro sample
    cases sample <;> simp [Base64.encode]
  refine ⟨(copyLoop sampleLimit.toNat stream.readErr {} (stream.chunks ++ [stream.last])).2, ?_⟩
  simp only [proxyCopyWithSample, hlimit, hloop, hencode, copied]

/-- A copy is transparent exactly when no write fails that has not taken its whole chunk; and a
number of type `int64` does not count 2 ^ 63 bytes. -/
theorem transparent_iff (sampleLimit : Int) :
    stream.Transparent sampleLimit ↔
      (∀ chunk ∈ stream.read, chunk.accepted = chunk.data) ∧ stream.received.length < 2 ^ 63 := by
  obtain ⟨err, heq⟩ := stream.proxyCopyWithSample_eq sampleLimit
  have hcount : (stream.received.length : Int).bmod (2 ^ 64) = stream.delivered.length ↔
      stream.received.length = stream.delivered.length ∧ stream.received.length < 2 ^ 63 :=
    bmod_eq_iff (length_accepted_le _) (received_lt _)
  have hall : stream.delivered.length = stream.received.length ↔
      ∀ chunk ∈ stream.read, chunk.accepted = chunk.data :=
    length_accepted_eq_iff stream.read
  rw [Transparent, heq, hcount, ← hall]
  constructor
  · rintro ⟨-, ⟨hlength, hlt⟩, -⟩
    exact ⟨hlength.symm, hlt⟩
  · rintro ⟨hlength, hlt⟩
    have hsame : stream.delivered = stream.received :=
      List.flatMap_congr (hall.mp hlength)
    exact ⟨rfl, ⟨hlength.symm, hlt⟩, by rw [hsame]⟩

/-- The destination takes two of four bytes and closes. -/
theorem counts_unwritten : ¬ ∀ (stream : Stream) (sampleLimit : Int),
    stream.Transparent sampleLimit := by
  intro h
  have hcopy := h ⟨[⟨[97, 98, 99, 100], some (2, "broken pipe"), by decide⟩],
    ⟨[], none, by decide⟩, none⟩ 32768
  exact absurd hcopy.2.1 (by decide)

end Stream

end Fctf.ProxyCopy
