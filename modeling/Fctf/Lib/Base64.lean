import Fctf.Lib.Traverse
import Mathlib.Data.List.Basic
import Mathlib.Data.List.DropRight
import Mathlib.Data.Option.Basic

/-!
Base64 over any alphabet: three bytes are four characters. The decoders are lenient: they
pass over line breaks and ignore the bits that the last character has to spare, so that they have
more than one text for the same bytes.
-/

namespace Base64

open Traverse

/-- Sixty-four characters, and the numbers that they stand for. -/
structure Alphabet where
  char : Nat → Char
  value : Char → Option Nat
  value_char : ∀ n, n < 64 → value (char n) = some n

variable (al : Alphabet)

/-- Without padding. -/
def encode : List UInt8 → List Char
  | a :: b :: c :: rest =>
    al.char (a.toNat / 4) :: al.char (a.toNat % 4 * 16 + b.toNat / 16) ::
      al.char (b.toNat % 16 * 4 + c.toNat / 64) :: al.char (c.toNat % 64) :: encode rest
  | [a, b] => [al.char (a.toNat / 4), al.char (a.toNat % 4 * 16 + b.toNat / 16),
      al.char (b.toNat % 16 * 4)]
  | [a] => [al.char (a.toNat / 4), al.char (a.toNat % 4 * 16)]
  | [] => []

/-- With the padding that fills the last four characters. -/
def encodePadded (padding : Char) (bytes : List UInt8) : List Char :=
  encode al bytes ++ List.replicate ((3 - bytes.length % 3) % 3) padding

/-- The bytes of numbers below sixty-four; a last one by itself has none. -/
def groups : List Nat → Option (List UInt8)
  | x :: y :: z :: w :: rest =>
    (groups rest).map fun bytes =>
      UInt8.ofNat (x * 4 + y / 16) :: UInt8.ofNat (y % 16 * 16 + z / 4) ::
        UInt8.ofNat (z % 4 * 64 + w) :: bytes
  | [x, y, z] => some [UInt8.ofNat (x * 4 + y / 16), UInt8.ofNat (y % 16 * 16 + z / 4)]
  | [x, y] => some [UInt8.ofNat (x * 4 + y / 16)]
  | [_] => none
  | [] => some []

def isLineBreak (c : Char) : Bool := c = '\r' || c = '\n'

def decode (text : List Char) : Option (List UInt8) :=
  ((text.filter fun c => !isLineBreak c).mapM al.value).bind groups

/-- With padding that fills the last four characters, and blanks anywhere. -/
def decodePadded (padding : Char) (isBlank : Char → Bool) (text : List Char) :
    Option (List UInt8) :=
  let text := text.filter fun c => !isBlank c
  let body := text.rdropWhile fun c => c = padding
  if text.length % 4 = 0 ∧ text.length ≤ body.length + 2 then (body.mapM al.value).bind groups
  else none

/-- The numbers of a text in which all else is passed over, up to padding that fills the last four
characters. `pads` counts the padding since the last number. -/
def sextets (padding : Char) : List Char → List Nat → Nat → Option (List Nat)
  | [], values, _ => if values.length % 4 = 0 then some values else none
  | c :: text, values, pads =>
    if c = padding then
      if 2 ≤ values.length % 4 then
        if 4 ≤ values.length % 4 + (pads + 1) then some values
        else sextets padding text values (pads + 1)
      else sextets padding text values pads
    else
      match al.value c with
      | none => sextets padding text values pads
      | some value => sextets padding text (values ++ [value]) 0

def decodeSkipping (padding : Char) (text : List Char) : Option (List UInt8) :=
  (sextets al padding text [] 0).bind groups

variable {al}

theorem mem_encode {bytes : List UInt8} {c : Char} (h : c ∈ encode al bytes) :
    ∃ n < 64, c = al.char n := by
  induction bytes using encode.induct with
  | case1 a b d rest ih =>
    have ha := a.toNat_lt
    have hb := b.toNat_lt
    have hd := d.toNat_lt
    rcases List.mem_cons.mp h with rfl | h
    · exact ⟨_, by omega, rfl⟩
    rcases List.mem_cons.mp h with rfl | h
    · exact ⟨_, by omega, rfl⟩
    rcases List.mem_cons.mp h with rfl | h
    · exact ⟨_, by omega, rfl⟩
    rcases List.mem_cons.mp h with rfl | h
    · exact ⟨_, by omega, rfl⟩
    · exact ih h
  | case2 a b =>
    have ha := a.toNat_lt
    have hb := b.toNat_lt
    simp only [encode, List.mem_cons, List.not_mem_nil, or_false] at h
    rcases h with rfl | rfl | rfl
    · exact ⟨_, by omega, rfl⟩
    · exact ⟨_, by omega, rfl⟩
    · exact ⟨_, by omega, rfl⟩
  | case3 a =>
    have ha := a.toNat_lt
    simp only [encode, List.mem_cons, List.not_mem_nil, or_false] at h
    rcases h with rfl | rfl
    · exact ⟨_, by omega, rfl⟩
    · exact ⟨_, by omega, rfl⟩
  | case4 => cases h

theorem byte_eq {n : Nat} {b : UInt8} (h : n = b.toNat) : UInt8.ofNat n = b := by
  rw [h, UInt8.ofNat_toNat]

/-- What is written is read back. -/
theorem groups_encode (bytes : List UInt8) :
    ((encode al bytes).mapM al.value).bind groups = some bytes := by
  induction bytes using encode.induct with
  | case1 a b c rest ih =>
    have ha := a.toNat_lt
    have hb := b.toNat_lt
    have hc := c.toNat_lt
    obtain ⟨values, hvalues, hgroups⟩ := Option.bind_eq_some_iff.mp ih
    simp only [encode, List.mapM_cons, al.value_char (a.toNat / 4) (by omega),
      al.value_char (a.toNat % 4 * 16 + b.toNat / 16) (by omega),
      al.value_char (b.toNat % 16 * 4 + c.toNat / 64) (by omega),
      al.value_char (c.toNat % 64) (by omega), hvalues, Option.bind_eq_bind, Option.bind_some,
      Option.pure_def, groups, hgroups, Option.map_some]
    rw [byte_eq (b := a) (by omega), byte_eq (b := b) (by omega), byte_eq (b := c) (by omega)]
  | case2 a b =>
    have ha := a.toNat_lt
    have hb := b.toNat_lt
    simp only [encode, List.mapM_cons, al.value_char (a.toNat / 4) (by omega),
      al.value_char (a.toNat % 4 * 16 + b.toNat / 16) (by omega),
      al.value_char (b.toNat % 16 * 4) (by omega), List.mapM_nil, Option.bind_eq_bind,
      Option.bind_some, Option.pure_def, groups]
    rw [byte_eq (b := a) (by omega), byte_eq (b := b) (by omega)]
  | case3 a =>
    have ha := a.toNat_lt
    simp only [encode, List.mapM_cons, al.value_char (a.toNat / 4) (by omega),
      al.value_char (a.toNat % 4 * 16) (by omega), List.mapM_nil, Option.bind_eq_bind,
      Option.bind_some, Option.pure_def, groups]
    rw [byte_eq (b := a) (by omega)]
  | case4 => rfl

/-- What does not stand for a number is not written. -/
theorem notMem_encode {c : Char} (h : al.value c = none) (bytes : List UInt8) :
    c ∉ encode al bytes := by
  intro hmem
  obtain ⟨n, hn, rfl⟩ := mem_encode hmem
  rw [al.value_char n hn] at h
  cases h

theorem decode_encode (hbreak : ∀ c, isLineBreak c = true → al.value c = none)
    (bytes : List UInt8) : decode al (encode al bytes) = some bytes := by
  have hkept : (encode al bytes).filter (fun c => !isLineBreak c) = encode al bytes := by
    apply List.filter_eq_self.mpr
    intro c hc
    cases hline : isLineBreak c with
    | false => rfl
    | true => exact absurd hc (notMem_encode (hbreak c hline) bytes)
  rw [decode, hkept]
  exact groups_encode bytes

theorem length_encode (bytes : List UInt8) :
    (encode al bytes).length = (bytes.length * 4 + 2) / 3 := by
  induction bytes using encode.induct with
  | case1 a b c rest ih =>
    simp only [encode, List.length_cons, ih]
    omega
  | case2 a b => simp [encode]
  | case3 a => simp [encode]
  | case4 => simp [encode]

theorem rdropWhile_append_replicate {c : Char} {l : List Char} (h : c ∉ l) (k : Nat) :
    (l ++ List.replicate k c).rdropWhile (fun d => d = c) = l := by
  induction k with
  | zero =>
    rw [List.replicate_zero, List.append_nil, List.rdropWhile_eq_self_iff]
    intro hl hlast
    exact h (of_decide_eq_true hlast ▸ List.getLast_mem hl)
  | succ k ih =>
    rw [List.replicate_succ', ← List.append_assoc, List.rdropWhile_concat_pos _ _ _ (by simp), ih]

theorem decodePadded_encodePadded {padding : Char} {isBlank : Char → Bool}
    (hpadding : al.value padding = none) (hkept : isBlank padding = false)
    (hblank : ∀ c, isBlank c = true → al.value c = none) (bytes : List UInt8) :
    decodePadded al padding isBlank (encodePadded al padding bytes) = some bytes := by
  have hfilter : (encodePadded al padding bytes).filter (fun c => !isBlank c) =
      encodePadded al padding bytes := by
    apply List.filter_eq_self.mpr
    intro c hc
    rcases List.mem_append.mp hc with hc | hc
    · cases hb : isBlank c with
      | false => rfl
      | true => exact absurd hc (notMem_encode (hblank c hb) bytes)
    · rw [List.eq_of_mem_replicate hc, hkept]
      rfl
  have hbody : (encodePadded al padding bytes).rdropWhile (fun c => c = padding) =
      encode al bytes :=
    rdropWhile_append_replicate (notMem_encode hpadding bytes) _
  have hlength : (encodePadded al padding bytes).length % 4 = 0 ∧
      (encodePadded al padding bytes).length ≤ (encode al bytes).length + 2 := by
    simp only [encodePadded, List.length_append, List.length_replicate, length_encode]
    have hrest : bytes.length % 3 = 0 ∨ bytes.length % 3 = 1 ∨ bytes.length % 3 = 2 := by omega
    rcases hrest with hrest | hrest | hrest <;> rw [hrest] <;> omega
  rw [decodePadded, hfilter, hbody, if_pos hlength]
  exact groups_encode bytes

theorem sextets_append {padding : Char} (hpadding : al.value padding = none) {text : List Char}
    {values : List Nat} (h : text.mapM al.value = some values) (rest : List Char)
    (before : List Nat) :
    sextets al padding (text ++ rest) before 0 = sextets al padding rest (before ++ values) 0 := by
  induction text generalizing before values with
  | nil =>
    obtain rfl : [] = values := Option.some.inj h
    rw [List.nil_append, List.append_nil]
  | cons c text ih =>
    rw [List.mapM_cons] at h
    obtain ⟨value, hvalue, hrest⟩ := Option.bind_eq_some_iff.mp h
    obtain ⟨values, hvalues, hcons⟩ := Option.bind_eq_some_iff.mp hrest
    obtain rfl : value :: values = _ := Option.some.inj hcons
    have hc : c ≠ padding := by
      rintro rfl
      rw [hpadding] at hvalue
      cases hvalue
    rw [List.cons_append, sextets, if_neg hc, hvalue]
    simp only
    rw [ih hvalues, List.append_assoc, List.singleton_append]

/-- The padding is as much as the text needs. -/
theorem sextets_padding {padding : Char} {values : List Nat} (h : values.length % 4 ≠ 1) :
    sextets al padding (List.replicate ((4 - values.length % 4) % 4) padding) values 0 =
      some values := by
  have hrest : values.length % 4 = 0 ∨ values.length % 4 = 2 ∨ values.length % 4 = 3 := by omega
  rcases hrest with hrest | hrest | hrest <;> simp [hrest, sextets, List.replicate]

theorem decodeSkipping_encode {padding : Char} (hpadding : al.value padding = none)
    (bytes : List UInt8) :
    decodeSkipping al padding (encode al bytes ++
      List.replicate ((4 - (encode al bytes).length % 4) % 4) padding) = some bytes := by
  have hencode : ((encode al bytes).mapM al.value).bind groups = some bytes := groups_encode bytes
  obtain ⟨values, hvalues, hgroups⟩ := Option.bind_eq_some_iff.mp hencode
  have hlength := length_of_mapM hvalues
  have hrest : values.length % 4 ≠ 1 := by
    rw [hlength, length_encode]
    omega
  rw [decodeSkipping, sextets_append hpadding hvalues, List.nil_append, ← hlength,
    sextets_padding hrest]
  exact hgroups

/-- What can be read has characters of the alphabet, and line breaks. -/
theorem value_of_decode {text : List Char} {bytes : List UInt8}
    (h : decode al text = some bytes) {c : Char} (hc : c ∈ text) :
    isLineBreak c = true ∨ (al.value c).isSome = true := by
  obtain ⟨values, hvalues, -⟩ := Option.bind_eq_some_iff.mp h
  cases hbreak : isLineBreak c with
  | true => exact .inl rfl
  | false =>
    have hkept : c ∈ text.filter fun c => !isLineBreak c := by simp [hc, hbreak]
    refine .inr ?_
    generalize text.filter (fun c => !isLineBreak c) = l at hkept hvalues
    induction l generalizing values with
    | nil => cases hkept
    | cons d l ih =>
      rw [List.mapM_cons] at hvalues
      obtain ⟨value, hvalue, hrest⟩ := Option.bind_eq_some_iff.mp hvalues
      obtain ⟨rest, hrest, -⟩ := Option.bind_eq_some_iff.mp hrest
      rcases List.mem_cons.mp hkept with rfl | hkept
      · rw [hvalue]
        rfl
      · exact ih rest hkept hrest

/-- Two alphabets that differ in some characters only. -/
theorem map_encode {al' : Alphabet} {f : Char → Char}
    (h : ∀ n, n < 64 → f (al.char n) = al'.char n) (bytes : List UInt8) :
    (encode al bytes).map f = encode al' bytes := by
  induction bytes using encode.induct with
  | case1 a b c rest ih =>
    have ha := a.toNat_lt
    have hb := b.toNat_lt
    have hc := c.toNat_lt
    simp only [encode, List.map_cons, ih]
    rw [h _ (by omega), h _ (by omega), h _ (by omega), h _ (by omega)]
  | case2 a b =>
    have ha := a.toNat_lt
    have hb := b.toNat_lt
    simp only [encode, List.map_cons, List.map_nil]
    rw [h _ (by omega), h _ (by omega), h _ (by omega)]
  | case3 a =>
    have ha := a.toNat_lt
    simp only [encode, List.map_cons, List.map_nil]
    rw [h _ (by omega), h _ (by omega)]
  | case4 => rfl

end Base64
