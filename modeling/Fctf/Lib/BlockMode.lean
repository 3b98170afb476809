import Mathlib.Data.List.Basic
import Mathlib.Logic.Equiv.Defs

/-!
Cipher block chaining over any permutation of blocks, and the padding of PKCS7. A text is padded
to whole blocks, split, chained, and joined again; the way back undoes each of these.
-/

namespace BlockMode

/-- So many bytes. -/
abbrev Block (n : Nat) := { bytes : List UInt8 // bytes.length = n }

variable {n : Nat}

def Block.xor (a b : Block n) : Block n :=
  ⟨List.zipWith (· ^^^ ·) a.1 b.1, by rw [List.length_zipWith, a.2, b.2, Nat.min_self]⟩

/-! ### Chaining -/

/-- Each block is mixed with the one that was written before it. -/
def chain (e : Equiv.Perm (Block n)) (iv : Block n) : List (Block n) → List (Block n)
  | [] => []
  | block :: blocks =>
    let written := e (block.xor iv)
    written :: chain e written blocks

def unchain (e : Equiv.Perm (Block n)) (iv : Block n) : List (Block n) → List (Block n)
  | [] => []
  | written :: blocks => (e.symm written).xor iv :: unchain e written blocks

theorem zipWith_xor_cancel (a b : List UInt8) (h : a.length = b.length) :
    List.zipWith (· ^^^ ·) (List.zipWith (· ^^^ ·) a b) b = a := by
  induction a generalizing b with
  | nil => rfl
  | cons x a ih =>
    cases b with
    | nil => cases h
    | cons y b =>
      have hcancel : x ^^^ y ^^^ y = x := by rw [UInt8.xor_assoc, UInt8.xor_self, UInt8.xor_zero]
      simp only [List.zipWith_cons_cons, hcancel, ih b (Nat.succ.inj h)]

@[simp] theorem Block.xor_xor (a b : Block n) : (a.xor b).xor b = a :=
  Subtype.ext (zipWith_xor_cancel a.1 b.1 (a.2.trans b.2.symm))

/-- By induction on the blocks, for any block that comes before them. -/
theorem unchain_chain (e : Equiv.Perm (Block n)) (iv : Block n) (blocks : List (Block n)) :
    unchain e iv (chain e iv blocks) = blocks := by
  induction blocks generalizing iv with
  | nil => rfl
  | cons block blocks ih => simp [chain, unchain, ih]

/-! ### Splitting into blocks -/

def joined (blocks : List (Block n)) : List UInt8 := blocks.flatMap Subtype.val

/-- The first `k` blocks, if that is all there is. -/
def splitInto (n : Nat) : Nat → List UInt8 → Option (List (Block n))
  | 0, bytes => if bytes.isEmpty then some [] else none
  | k + 1, bytes =>
    if h : n ≤ bytes.length then
      (splitInto n k (bytes.drop n)).map
        (⟨bytes.take n, by rw [List.length_take, Nat.min_eq_left h]⟩ :: ·)
    else none

def split (n : Nat) (bytes : List UInt8) : Option (List (Block n)) :=
  splitInto n (bytes.length / n) bytes

theorem length_joined (blocks : List (Block n)) : (joined blocks).length = n * blocks.length := by
  induction blocks with
  | nil => rfl
  | cons block blocks ih =>
    rw [joined, List.flatMap_cons, List.length_append, block.2, ← joined, ih, List.length_cons,
      Nat.mul_succ, Nat.add_comm]

theorem splitInto_joined (blocks : List (Block n)) :
    splitInto n blocks.length (joined blocks) = some blocks := by
  induction blocks with
  | nil => rfl
  | cons block blocks ih =>
    have hle : n ≤ (block.1 ++ joined blocks).length := by
      rw [List.length_append, block.2]
      exact Nat.le_add_right n _
    have hdrop : (block.1 ++ joined blocks).drop n = joined blocks := List.drop_left' block.2
    have htake : (block.1 ++ joined blocks).take n = block.1 := List.take_left' block.2
    have hjoined : joined (block :: blocks) = block.1 ++ joined blocks := rfl
    rw [List.length_cons, hjoined, splitInto, dif_pos hle, hdrop, ih]
    simp only [Option.map_some, htake]

theorem split_joined (hn : 0 < n) (blocks : List (Block n)) :
    split n (joined blocks) = some blocks := by
  rw [split, length_joined, Nat.mul_div_cancel_left _ hn]
  exact splitInto_joined blocks

/-- Whole blocks split. -/
theorem exists_joined {k : Nat} {bytes : List UInt8} (h : bytes.length = n * k) :
    ∃ blocks : List (Block n), joined blocks = bytes := by
  induction k generalizing bytes with
  | zero => exact ⟨[], (List.eq_nil_of_length_eq_zero h).symm⟩
  | succ k ih =>
    have hle : n ≤ bytes.length := by
      rw [h, Nat.mul_succ]
      exact Nat.le_add_left n _
    have hrest : (bytes.drop n).length = n * k := by
      rw [List.length_drop, h, Nat.mul_succ, Nat.add_sub_cancel]
    obtain ⟨blocks, hblocks⟩ := ih hrest
    refine ⟨⟨bytes.take n, by rw [List.length_take, Nat.min_eq_left hle]⟩ :: blocks, ?_⟩
    rw [joined, List.flatMap_cons, ← joined, hblocks, List.take_append_drop]

/-! ### The mode as a whole -/

/-- `none` for bytes that are no whole blocks. -/
def cbcEncrypt (e : Equiv.Perm (Block n)) (iv : Block n) (bytes : List UInt8) :
    Option (List UInt8) :=
  (split n bytes).map fun blocks => joined (chain e iv blocks)

def cbcDecrypt (e : Equiv.Perm (Block n)) (iv : Block n) (bytes : List UInt8) :
    Option (List UInt8) :=
  (split n bytes).map fun blocks => joined (unchain e iv blocks)

theorem length_chain (e : Equiv.Perm (Block n)) (iv : Block n) (blocks : List (Block n)) :
    (chain e iv blocks).length = blocks.length := by
  induction blocks generalizing iv with
  | nil => rfl
  | cons block blocks ih => simp [chain, ih]

/-- Whole blocks are encrypted to as many bytes, and decrypted to themselves. -/
theorem cbc_roundTrip (hn : 0 < n) (e : Equiv.Perm (Block n)) (iv : Block n) {bytes : List UInt8}
    (h : n ∣ bytes.length) :
    ∃ written, cbcEncrypt e iv bytes = some written ∧ written.length = bytes.length ∧
      cbcDecrypt e iv written = some bytes := by
  obtain ⟨k, hk⟩ := h
  obtain ⟨blocks, rfl⟩ := exists_joined hk
  refine ⟨joined (chain e iv blocks), ?_, ?_, ?_⟩
  · rw [cbcEncrypt, split_joined hn]
    rfl
  · rw [length_joined, length_joined, length_chain]
  · rw [cbcDecrypt, split_joined hn, Option.map_some, unchain_chain]

/-! ### PKCS7 -/

/-- Up to a whole block of bytes that all tell how many they are. -/
def pad (n : Nat) (bytes : List UInt8) : List UInt8 :=
  bytes ++ List.replicate (n - bytes.length % n) (UInt8.ofNat (n - bytes.length % n))

/-- The padding is checked. -/
def unpad (n : Nat) (bytes : List UInt8) : Option (List UInt8) :=
  match bytes.getLast? with
  | none => none
  | some last =>
    let count := last.toNat
    if 0 < count ∧ count ≤ n ∧ count ≤ bytes.length ∧
        (bytes.drop (bytes.length - count)).all (· = last) then
      some (bytes.take (bytes.length - count))
    else none

theorem dvd_length_pad (hn : 0 < n) (bytes : List UInt8) : n ∣ (pad n bytes).length := by
  have hlt := Nat.mod_lt bytes.length hn
  have hsplit := Nat.div_add_mod bytes.length n
  refine ⟨bytes.length / n + 1, ?_⟩
  rw [pad, List.length_append, List.length_replicate, Nat.mul_succ]
  omega

/-- There is always padding, and its last byte is its length. -/
theorem pad_eq (hn : 0 < n) (hsmall : n < 256) (bytes : List UInt8) :
    ∃ count : UInt8, 0 < count.toNat ∧ count.toNat ≤ n ∧
      pad n bytes = bytes ++ List.replicate count.toNat count := by
  have hlt := Nat.mod_lt bytes.length hn
  have hcount : (UInt8.ofNat (n - bytes.length % n)).toNat = n - bytes.length % n := by
    rw [UInt8.toNat_ofNat', Nat.mod_eq_of_lt (by omega)]
  refine ⟨UInt8.ofNat (n - bytes.length % n), by omega, by omega, ?_⟩
  rw [hcount]
  rfl

theorem getLast?_padded {count : UInt8} (h : 0 < count.toNat) (bytes : List UInt8) :
    (bytes ++ List.replicate count.toNat count).getLast? = some count := by
  rw [List.getLast?_append, List.getLast?_replicate, if_neg (by omega)]
  rfl

theorem take_padded {count : UInt8} (bytes : List UInt8) :
    (bytes ++ List.replicate count.toNat count).take
      ((bytes ++ List.replicate count.toNat count).length - count.toNat) = bytes := by
  rw [List.length_append, List.length_replicate, Nat.add_sub_cancel, List.take_left' rfl]

theorem unpad_pad (hn : 0 < n) (hsmall : n < 256) (bytes : List UInt8) :
    unpad n (pad n bytes) = some bytes := by
  obtain ⟨count, hpos, hle, heq⟩ := pad_eq hn hsmall bytes
  have hdrop : (bytes ++ List.replicate count.toNat count).drop
      ((bytes ++ List.replicate count.toNat count).length - count.toNat) =
        List.replicate count.toNat count := by
    rw [List.length_append, List.length_replicate, Nat.add_sub_cancel, List.drop_left' rfl]
  have hlength : count.toNat ≤ (bytes ++ List.replicate count.toNat count).length := by
    rw [List.length_append, List.length_replicate]
    exact Nat.le_add_left _ _
  simp only [heq, unpad, getLast?_padded hpos, hdrop, take_padded]
  rw [if_pos ⟨hpos, hle, hlength, by simp⟩]

end BlockMode
