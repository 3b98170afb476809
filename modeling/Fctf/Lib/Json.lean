import Mathlib.Data.List.Basic
import Mathlib.Data.Option.Basic

/-!
JSON texts as two libraries have them. The writer escapes every character outside of a set of
plain ones, those beyond sixteen bits as two surrogates. The reader takes any JSON text; a
surrogate without its partner becomes the replacement character.
-/

namespace Json

/-- A JSON value; a number keeps its text. -/
inductive Tree
  | null
  | bool (b : Bool)
  | number (literal : List Char)
  | string (s : List Char)
  | array (items : List Tree)
  | object (members : List (List Char × Tree))

/-! ### Hexadecimal escapes -/

def hexDigit (n : Nat) : Char :=
  if n < 10 then Char.ofNat (48 + n) else Char.ofNat (55 + n)

def hexValue (c : Char) : Option Nat :=
  let n := c.toNat
  if 48 ≤ n ∧ n ≤ 57 then some (n - 48)
  else if 65 ≤ n ∧ n ≤ 70 then some (n - 55)
  else if 97 ≤ n ∧ n ≤ 102 then some (n - 87)
  else none

def hex4 (digit : Nat → Char) (n : Nat) : List Char :=
  [digit (n / 4096 % 16), digit (n / 256 % 16), digit (n / 16 % 16), digit (n % 16)]

def hexValue4 (a b c d : Char) : Option Nat := do
  let a ← hexValue a
  let b ← hexValue b
  let c ← hexValue c
  let d ← hexValue d
  some (a * 4096 + b * 256 + c * 16 + d)

/-! ### Strings -/

/-- A part of a string's text: a character that stands for itself, or an escaped unit. -/
inductive Part
  | plain (c : Char)
  | unit (n : Nat)
  deriving DecidableEq

def isHigh (n : Nat) : Bool := 0xD800 ≤ n && n < 0xDC00

def isLow (n : Nat) : Bool := 0xDC00 ≤ n && n < 0xE000

def replacement : Char := Char.ofNat 0xFFFD

/-- The character of a unit by itself. -/
def ofUnit (n : Nat) : Char := if isHigh n || isLow n then replacement else Char.ofNat n

/-- The characters of a string: two surrogates that fit are one. -/
def combine : List Part → List Char
  | [] => []
  | .plain c :: rest => c :: combine rest
  | [.unit n] => [ofUnit n]
  | .unit n :: .plain c :: rest => ofUnit n :: c :: combine rest
  | .unit n :: .unit m :: rest =>
    if isHigh n && isLow m then
      Char.ofNat (0x10000 + (n - 0xD800) * 0x400 + (m - 0xDC00)) :: combine rest
    else ofUnit n :: combine (.unit m :: rest)

/-- The character of a short escape. -/
def shortEscape (c : Char) : Option Char :=
  if c = '"' ∨ c = '\\' ∨ c = '/' then some c
  else if c = 'b' then some (Char.ofNat 8)
  else if c = 'f' then some (Char.ofNat 12)
  else if c = 'n' then some '\n'
  else if c = 'r' then some '\r'
  else if c = 't' then some '\t'
  else none

/-- The parts of a string up to its closing quote, and the text after it. -/
def parts : List Char → Option (List Part × List Char)
  | [] => none
  | '"' :: rest => some ([], rest)
  | '\\' :: 'u' :: a :: b :: c :: d :: rest => do
    let n ← hexValue4 a b c d
    let (tail, rest) ← parts rest
    some (.unit n :: tail, rest)
  | '\\' :: c :: rest => do
    let c ← shortEscape c
    let (tail, rest) ← parts rest
    some (.plain c :: tail, rest)
  | c :: rest =>
    if c = '\\' ∨ c.toNat < 0x20 then none
    else (parts rest).map fun p => (.plain c :: p.1, p.2)

/-- A string after its opening quote. -/
def readString (text : List Char) : Option (List Char × List Char) :=
  (parts text).map fun p => (combine p.1, p.2)

/-! ### Numbers -/

def isDigits (l : List Char) : Bool := !l.isEmpty && l.all Char.isDigit

def isExponent : List Char → Bool
  | [] => true
  | e :: '+' :: rest => (e = 'e' || e = 'E') && isDigits rest
  | e :: '-' :: rest => (e = 'e' || e = 'E') && isDigits rest
  | e :: rest => (e = 'e' || e = 'E') && isDigits rest

def isFraction : List Char → Bool
  | '.' :: rest =>
    isDigits (rest.takeWhile Char.isDigit) && isExponent (rest.dropWhile Char.isDigit)
  | rest => isExponent rest

def isUnsigned (l : List Char) : Bool :=
  let digits := l.takeWhile Char.isDigit
  isDigits digits && (digits.head? ≠ some '0' || digits.length = 1) &&
    isFraction (l.dropWhile Char.isDigit)

def isNumber : List Char → Bool
  | '-' :: rest => isUnsigned rest
  | l => isUnsigned l

def isNumberChar (c : Char) : Bool :=
  c.isDigit || c = '-' || c = '+' || c = '.' || c = 'e' || c = 'E'

/-! ### Values -/

def isSpace (c : Char) : Bool := c = ' ' || c = '\t' || c = '\n' || c = '\r'

def skipSpace (l : List Char) : List Char := l.dropWhile isSpace

/-- The word, if the text begins with it. -/
def word (w : List Char) (t : Tree) (text : List Char) : Option (Tree × List Char) :=
  if w.isPrefixOf text then some (t, text.drop w.length) else none

mutual

/-- A value at the start of the text, nested no deeper than `depth`; `fuel` bounds the calls. -/
def value (fuel depth : Nat) (text : List Char) : Option (Tree × List Char) :=
  match fuel with
  | 0 => none
  | fuel + 1 =>
    match skipSpace text with
    | [] => none
    | '{' :: rest =>
      if depth = 0 then none
      else
        match skipSpace rest with
        | '}' :: rest => some (.object [], rest)
        | rest => (members fuel (depth - 1) rest).map fun p => (.object p.1, p.2)
    | '[' :: rest =>
      if depth = 0 then none
      else
        match skipSpace rest with
        | ']' :: rest => some (.array [], rest)
        | rest => (items fuel (depth - 1) rest).map fun p => (.array p.1, p.2)
    | '"' :: rest => (readString rest).map fun p => (.string p.1, p.2)
    | 'n' :: rest => word ['n', 'u', 'l', 'l'] .null ('n' :: rest)
    | 't' :: rest => word ['t', 'r', 'u', 'e'] (.bool true) ('t' :: rest)
    | 'f' :: rest => word ['f', 'a', 'l', 's', 'e'] (.bool false) ('f' :: rest)
    | text =>
      if isNumber (text.takeWhile isNumberChar) then
        some (.number (text.takeWhile isNumberChar), text.dropWhile isNumberChar)
      else none

/-- The members of an object up to its closing brace. -/
def members (fuel depth : Nat) (text : List Char) :
    Option (List (List Char × Tree) × List Char) :=
  match fuel with
  | 0 => none
  | fuel + 1 =>
    match skipSpace text with
    | '"' :: rest => do
      let (key, rest) ← readString rest
      match skipSpace rest with
      | ':' :: rest =>
        let (t, rest) ← value fuel depth rest
        match skipSpace rest with
        | ',' :: rest => (members fuel depth rest).map fun p => ((key, t) :: p.1, p.2)
        | '}' :: rest => some ([(key, t)], rest)
        | _ => none
      | _ => none
    | _ => none

/-- The items of an array up to its closing bracket. -/
def items (fuel depth : Nat) (text : List Char) : Option (List Tree × List Char) :=
  match fuel with
  | 0 => none
  | fuel + 1 => do
    let (t, rest) ← value fuel depth text
    match skipSpace rest with
    | ',' :: rest => (items fuel depth rest).map fun p => (t :: p.1, p.2)
    | ']' :: rest => some ([t], rest)
    | _ => none

end

/-- A text that is one value. Every call of the reader is for a character of the text. -/
def read (depth : Nat) (text : List Char) : Option Tree :=
  match value (2 * text.length + 2) depth text with
  | some (t, rest) => if (skipSpace rest).isEmpty then some t else none
  | none => none

/-! ### Writing strings -/

/-- Which characters a writer leaves as they are, and which have a short escape. -/
structure Encoder where
  isPlain : Char → Bool
  short : Char → Option Char
  digit : Nat → Char := hexDigit
  plain_ok : ∀ c, isPlain c = true → c ≠ '"' ∧ c ≠ '\\' ∧ 0x20 ≤ c.toNat
  short_ok : ∀ c e, short c = some e → e ≠ 'u' ∧ shortEscape e = some c
  digit_ok : ∀ n < 16, hexValue (digit n) = some n := by decide

/-- The units of a character in UTF-16. -/
def units (c : Char) : List Nat :=
  if c.toNat < 0x10000 then [c.toNat]
  else [0xD800 + (c.toNat - 0x10000) / 0x400, 0xDC00 + (c.toNat - 0x10000) % 0x400]

def Encoder.escape (enc : Encoder) (c : Char) : List Char :=
  if enc.isPlain c then [c]
  else
    match enc.short c with
    | some e => ['\\', e]
    | none => (units c).flatMap fun n => '\\' :: 'u' :: hex4 enc.digit n

def Encoder.writeString (enc : Encoder) (s : List Char) : List Char :=
  '"' :: (s.flatMap enc.escape ++ ['"'])

/-! ### Strings are read back -/

theorem Encoder.hexValue4_hex4 (enc : Encoder) {n : Nat} (h : n < 0x10000) :
    hexValue4 (enc.digit (n / 4096 % 16)) (enc.digit (n / 256 % 16)) (enc.digit (n / 16 % 16))
      (enc.digit (n % 16)) = some n := by
  have hdigit : ∀ k, hexValue (enc.digit (k % 16)) = some (k % 16) :=
    fun k => enc.digit_ok _ (Nat.mod_lt _ (by decide))
  simp only [hexValue4, hdigit, Option.bind_eq_bind, Option.bind_some, Option.some.injEq]
  omega

theorem Encoder.parts_unit (enc : Encoder) {n : Nat} (h : n < 0x10000) (rest : List Char) :
    parts ('\\' :: 'u' :: hex4 enc.digit n ++ rest) =
      (parts rest).map fun p => (.unit n :: p.1, p.2) := by
  simp only [hex4, List.cons_append, List.nil_append, parts, enc.hexValue4_hex4 h,
    Option.bind_eq_bind, Option.bind_some]
  cases parts rest <;> rfl

theorem parts_short {c e : Char} (he : e ≠ 'u') (hc : shortEscape e = some c) (rest : List Char) :
    parts ('\\' :: e :: rest) = (parts rest).map fun p => (.plain c :: p.1, p.2) := by
  have hstep : parts ('\\' :: e :: rest) = (shortEscape e).bind fun c =>
      (parts rest).bind fun p => some (.plain c :: p.1, p.2) := by
    conv_lhs => unfold parts
    split
    · rename_i heq
      cases heq
    · rename_i heq
      cases heq
    · rename_i heq
      cases heq
      exact absurd rfl he
    · rename_i heq
      cases heq
      rfl
    · rename_i hnot heq
      cases heq
      exact absurd rfl (hnot _ _ rfl)
  rw [hstep, hc, Option.bind_some]
  cases parts rest <;> rfl

theorem parts_plain {c : Char} (hquote : c ≠ '"') (hslash : c ≠ '\\') (hspace : 0x20 ≤ c.toNat)
    (rest : List Char) :
    parts (c :: rest) = (parts rest).map fun p => (.plain c :: p.1, p.2) := by
  conv_lhs => unfold parts
  split
  · rename_i heq
    cases heq
  · rename_i heq
    cases heq
    exact absurd rfl hquote
  · rename_i heq
    cases heq
    exact absurd rfl hslash
  · rename_i heq
    cases heq
    exact absurd rfl hslash
  · rename_i heq
    cases heq
    rw [if_neg (not_or.mpr ⟨hslash, Nat.not_lt.mpr hspace⟩)]

theorem toNat_lt (c : Char) : c.toNat < 0x110000 := by
  rcases c.valid with h | h
  · exact Nat.lt_trans h (by decide)
  · exact h.2

theorem units_lt {c : Char} {n : Nat} (h : n ∈ units c) : n < 0x10000 := by
  have hc : c.toNat < 0x110000 := toNat_lt c
  unfold units at h
  split at h
  · rw [List.mem_singleton.mp h]
    assumption
  · simp only [List.mem_cons, List.not_mem_nil, or_false] at h
    omega

theorem Encoder.parts_units (enc : Encoder) {l : List Nat} (h : ∀ n ∈ l, n < 0x10000)
    (rest : List Char) :
    parts ((l.flatMap fun n => '\\' :: 'u' :: hex4 enc.digit n) ++ rest) =
      (parts rest).map fun p => (l.map .unit ++ p.1, p.2) := by
  induction l with
  | nil => simp
  | cons n l ih =>
    rw [List.flatMap_cons, List.append_assoc, enc.parts_unit (h n List.mem_cons_self),
      ih fun m hm => h m (List.mem_cons_of_mem _ hm)]
    cases parts rest <;> rfl

/-- The parts that a written character is read as. -/
def Encoder.partsOf (enc : Encoder) (c : Char) : List Part :=
  if enc.isPlain c || (enc.short c).isSome then [.plain c] else (units c).map .unit

theorem Encoder.parts_escape (enc : Encoder) (c : Char) (rest : List Char) :
    parts (enc.escape c ++ rest) = (parts rest).map fun p => (enc.partsOf c ++ p.1, p.2) := by
  unfold escape partsOf
  cases hplain : enc.isPlain c with
  | true =>
    obtain ⟨hquote, hslash, hspace⟩ := enc.plain_ok c hplain
    exact parts_plain hquote hslash hspace rest
  | false =>
    cases hshort : enc.short c with
    | some e =>
      obtain ⟨he, hc⟩ := enc.short_ok c e hshort
      exact parts_short he hc rest
    | none => exact enc.parts_units (fun n hn => units_lt hn) rest

theorem combine_unit {n : Nat} (h : isHigh n = false) (rest : List Part) :
    combine (.unit n :: rest) = ofUnit n :: combine rest := by
  cases rest with
  | nil => rfl
  | cons part rest =>
    cases part with
    | plain c => rfl
    | unit m => simp [combine, h]

theorem combine_units (c : Char) (rest : List Part) :
    combine ((units c).map .unit ++ rest) = c :: combine rest := by
  have hc : c.toNat < 0x110000 := toNat_lt c
  have hvalid : c.toNat < 0xD800 ∨ 0xDFFF < c.toNat := by
    rcases c.valid with h | h
    · exact .inl h
    · exact .inr h.1
  unfold units
  split
  · have hhigh : isHigh c.toNat = false := by
      simp only [isHigh, Bool.and_eq_false_imp, decide_eq_true_eq, decide_eq_false_iff_not]
      omega
    have hlow : isLow c.toNat = false := by
      simp only [isLow, Bool.and_eq_false_imp, decide_eq_true_eq, decide_eq_false_iff_not]
      omega
    rw [List.map_singleton, List.singleton_append, combine_unit hhigh, ofUnit, hhigh, hlow]
    simp
  · have hhigh : isHigh (0xD800 + (c.toNat - 0x10000) / 0x400) = true := by
      simp only [isHigh, Bool.and_eq_true, decide_eq_true_eq]
      omega
    have hlow : isLow (0xDC00 + (c.toNat - 0x10000) % 0x400) = true := by
      simp only [isLow, Bool.and_eq_true, decide_eq_true_eq]
      omega
    have hsum : 0x10000 + (0xD800 + (c.toNat - 0x10000) / 0x400 - 0xD800) * 0x400 +
        (0xDC00 + (c.toNat - 0x10000) % 0x400 - 0xDC00) = c.toNat := by
      omega
    simp only [List.map_cons, List.map_nil, List.cons_append, List.nil_append, combine, hhigh,
      hlow, Bool.and_self, if_true, hsum, Char.ofNat_toNat]

/-- A text is known by its units. -/
theorem flatMap_units_injective : Function.Injective fun s : List Char => s.flatMap units := by
  have hcombine : ∀ s : List Char, combine ((s.flatMap units).map .unit) = s := by
    intro s
    induction s with
    | nil => rfl
    | cons c s ih => rw [List.flatMap_cons, List.map_append, combine_units, ih]
  intro s t h
  have hsame := congrArg (fun units => combine (units.map .unit)) h
  simpa only [hcombine] using hsame

theorem Encoder.combine_partsOf (enc : Encoder) (c : Char) (rest : List Part) :
    combine (enc.partsOf c ++ rest) = c :: combine rest := by
  unfold partsOf
  split
  · rfl
  · exact combine_units c rest

/-- A written string is read back, and the reader stops where it ends. -/
theorem Encoder.readString_write (enc : Encoder) (s rest : List Char) :
    readString (s.flatMap enc.escape ++ '"' :: rest) = some (s, rest) := by
  have hparts : parts (s.flatMap enc.escape ++ '"' :: rest) =
      some (s.flatMap enc.partsOf, rest) := by
    induction s with
    | nil => rfl
    | cons c s ih =>
      rw [List.flatMap_cons, List.append_assoc, enc.parts_escape, ih]
      rfl
  have hcombine : ∀ s : List Char, combine (s.flatMap enc.partsOf) = s := by
    intro s
    induction s with
    | nil => rfl
    | cons c s ih => rw [List.flatMap_cons, enc.combine_partsOf, ih]
  rw [readString, hparts, Option.map_some, hcombine]

/-! ### Flat objects are read back -/

theorem skipSpace_of_head {c : Char} (h : isSpace c = false) (rest : List Char) :
    skipSpace (c :: rest) = c :: rest := by
  rw [skipSpace, List.dropWhile_cons_of_neg (by simp [h])]

theorem Encoder.value_string (enc : Encoder) (fuel depth : Nat) (s rest : List Char) :
    value (fuel + 1) depth (enc.writeString s ++ rest) = some (.string s, rest) := by
  have htext : enc.writeString s ++ rest = '"' :: (s.flatMap enc.escape ++ '"' :: rest) := by
    simp [writeString]
  rw [htext, value, skipSpace_of_head rfl]
  simp only
  rw [enc.readString_write]
  rfl

/-- A number ends before a character that no number has. -/
theorem value_number {literal : List Char} (fuel depth : Nat) (hnumber : isNumber literal = true)
    (hchars : ∀ c ∈ literal, isNumberChar c = true) {c : Char} (hc : isNumberChar c = false)
    (rest : List Char) :
    value (fuel + 1) depth (literal ++ c :: rest) = some (.number literal, c :: rest) := by
  have htake : (literal ++ c :: rest).takeWhile isNumberChar = literal := by
    rw [List.takeWhile_append_of_pos hchars, List.takeWhile_cons_of_neg (by simp [hc]),
      List.append_nil]
  have hdrop : (literal ++ c :: rest).dropWhile isNumberChar = c :: rest := by
    rw [List.dropWhile_append_of_pos hchars, List.dropWhile_cons_of_neg (by simp [hc])]
  cases literal with
  | nil => cases hnumber
  | cons d tail =>
    have hd : isNumberChar d = true := hchars d List.mem_cons_self
    have hne : ∀ {e : Char}, isNumberChar e = false → d ≠ e := by
      rintro e he rfl
      rw [hd] at he
      cases he
    have hspace : isSpace d = false := by
      simp only [isSpace, Bool.or_eq_false_iff, decide_eq_false_iff_not]
      exact ⟨⟨⟨hne (by decide), hne (by decide)⟩, hne (by decide)⟩, hne (by decide)⟩
    rw [List.cons_append] at htake hdrop ⊢
    rw [value, skipSpace_of_head hspace]
    split
    · rename_i heq
      cases heq
    · rename_i heq
      exact absurd (List.cons.inj heq).1 (hne (by decide))
    · rename_i heq
      exact absurd (List.cons.inj heq).1 (hne (by decide))
    · rename_i heq
      exact absurd (List.cons.inj heq).1 (hne (by decide))
    · rename_i heq
      exact absurd (List.cons.inj heq).1 (hne (by decide))
    · rename_i heq
      exact absurd (List.cons.inj heq).1 (hne (by decide))
    · rename_i heq
      exact absurd (List.cons.inj heq).1 (hne (by decide))
    · rw [htake, hdrop, if_pos hnumber]

/-- A member of an object, and the text after it. -/
def Encoder.writeMember (enc : Encoder) (key value rest : List Char) : List Char :=
  enc.writeString key ++ ':' :: (value ++ rest)

theorem Encoder.members_more (enc : Encoder) {fuel depth : Nat} {v : List Char} {t : Tree}
    (key rest : List Char)
    (hvalue : value fuel depth (v ++ ',' :: rest) = some (t, ',' :: rest)) :
    members (fuel + 1) depth (enc.writeMember key v (',' :: rest)) =
      (members fuel depth rest).map fun p => ((key, t) :: p.1, p.2) := by
  have htext : enc.writeMember key v (',' :: rest) =
      '"' :: (key.flatMap enc.escape ++ '"' :: ':' :: (v ++ ',' :: rest)) := by
    simp [writeMember, writeString]
  rw [htext, members, skipSpace_of_head rfl]
  simp only
  rw [enc.readString_write]
  simp only [Option.bind_eq_bind, Option.bind_some]
  rw [skipSpace_of_head rfl]
  simp only
  rw [hvalue]
  simp only [Option.bind_some]
  rw [skipSpace_of_head rfl]
  rfl

theorem Encoder.members_last (enc : Encoder) {fuel depth : Nat} {v : List Char} {t : Tree}
    (key rest : List Char)
    (hvalue : value fuel depth (v ++ '}' :: rest) = some (t, '}' :: rest)) :
    members (fuel + 1) depth (enc.writeMember key v ('}' :: rest)) = some ([(key, t)], rest) := by
  have htext : enc.writeMember key v ('}' :: rest) =
      '"' :: (key.flatMap enc.escape ++ '"' :: ':' :: (v ++ '}' :: rest)) := by
    simp [writeMember, writeString]
  rw [htext, members, skipSpace_of_head rfl]
  simp only
  rw [enc.readString_write]
  simp only [Option.bind_eq_bind, Option.bind_some]
  rw [skipSpace_of_head rfl]
  simp only
  rw [hvalue]
  simp only [Option.bind_some]
  rw [skipSpace_of_head rfl]
  rfl

theorem Encoder.value_object (enc : Encoder) (fuel depth : Nat) (key v rest : List Char) :
    value (fuel + 1) (depth + 1) ('{' :: enc.writeMember key v rest) =
      (members fuel depth (enc.writeMember key v rest)).map fun p => (.object p.1, p.2) := by
  have htext : enc.writeMember key v rest =
      '"' :: (key.flatMap enc.escape ++ '"' :: ':' :: (v ++ rest)) := by
    simp [writeMember, writeString]
  rw [htext, value, skipSpace_of_head rfl]
  simp only
  rw [if_neg (Nat.succ_ne_zero depth), skipSpace_of_head rfl]
  rfl

/-- A text is read as a value before a character. -/
def ReadsBefore (c : Char) (depth : Nat) (v : List Char) (t : Tree) : Prop :=
  ∀ fuel rest, value (fuel + 1) depth (v ++ c :: rest) = some (t, c :: rest)

theorem Encoder.readsBefore_string (enc : Encoder) (c : Char) (depth : Nat) (s : List Char) :
    ReadsBefore c depth (enc.writeString s) (.string s) :=
  fun fuel rest => enc.value_string fuel depth s (c :: rest)

/-- An object of three members. -/
theorem Encoder.read_three (enc : Encoder) {depth : Nat} {k₁ k₂ k₃ v₁ v₂ v₃ : List Char}
    {t₁ t₂ t₃ : Tree} (h₁ : ReadsBefore ',' depth v₁ t₁) (h₂ : ReadsBefore ',' depth v₂ t₂)
    (h₃ : ReadsBefore '}' depth v₃ t₃) :
    read (depth + 1) ('{' :: enc.writeMember k₁ v₁ (',' :: enc.writeMember k₂ v₂
      (',' :: enc.writeMember k₃ v₃ ['}']))) =
        some (.object [(k₁, t₁), (k₂, t₂), (k₃, t₃)]) := by
  obtain ⟨fuel, hfuel⟩ : ∃ fuel, 2 * ('{' :: enc.writeMember k₁ v₁ (',' :: enc.writeMember k₂ v₂
      (',' :: enc.writeMember k₃ v₃ ['}']))).length + 2 = fuel + 5 :=
    ⟨2 * (enc.writeMember k₁ v₁ (',' :: enc.writeMember k₂ v₂
      (',' :: enc.writeMember k₃ v₃ ['}']))).length - 1, by
        simp only [List.length_cons, writeMember, List.length_append]
        omega⟩
  have hobject := enc.value_object (fuel + 4) depth k₁ v₁
    (',' :: enc.writeMember k₂ v₂ (',' :: enc.writeMember k₃ v₃ ['}']))
  rw [enc.members_more _ _ (h₁ _ _), enc.members_more _ _ (h₂ _ _),
    enc.members_last _ _ (h₃ _ _)] at hobject
  rw [read, hfuel]
  simp only [hobject, Option.map_some]
  rfl

/-! ### Trees are read back -/

mutual

/-- A value without blanks. -/
def Encoder.write (enc : Encoder) : Tree → List Char
  | .null => ['n', 'u', 'l', 'l']
  | .bool true => ['t', 'r', 'u', 'e']
  | .bool false => ['f', 'a', 'l', 's', 'e']
  | .number literal => literal
  | .string s => enc.writeString s
  | .array items => '[' :: enc.writeItems items
  | .object members => '{' :: enc.writeMembers members

/-- The items of an array and its closing bracket. -/
def Encoder.writeItems (enc : Encoder) : List Tree → List Char
  | [] => [']']
  | [t] => enc.write t ++ [']']
  | t :: u :: rest => enc.write t ++ ',' :: enc.writeItems (u :: rest)

/-- The members of an object and its closing brace. -/
def Encoder.writeMembers (enc : Encoder) : List (List Char × Tree) → List Char
  | [] => ['}']
  | [(key, t)] => enc.writeMember key (enc.write t) ['}']
  | (key, t) :: member :: rest =>
    enc.writeMember key (enc.write t) (',' :: enc.writeMembers (member :: rest))

end

mutual

/-- The numbers of a tree are numbers of JSON. -/
def Tree.hasNumbers : Tree → Bool
  | .number literal => isNumber literal && literal.all isNumberChar
  | .array items => itemsHaveNumbers items
  | .object members => membersHaveNumbers members
  | _ => true

def Tree.itemsHaveNumbers : List Tree → Bool
  | [] => true
  | t :: rest => t.hasNumbers && itemsHaveNumbers rest

def Tree.membersHaveNumbers : List (List Char × Tree) → Bool
  | [] => true
  | (_, t) :: rest => t.hasNumbers && membersHaveNumbers rest

end

/-- A written value begins with a character that is no blank and closes no array. -/
theorem Encoder.write_eq_cons (enc : Encoder) {t : Tree} (h : t.hasNumbers = true) :
    ∃ c tail, enc.write t = c :: tail ∧ isSpace c = false ∧ c ≠ ']' := by
  cases t with
  | null => exact ⟨_, _, by rw [write], rfl, by decide⟩
  | bool b =>
    cases b with
    | false => exact ⟨_, _, by rw [write], rfl, by decide⟩
    | true => exact ⟨_, _, by rw [write], rfl, by decide⟩
  | number literal =>
    obtain ⟨hnumber, hchars⟩ := Bool.and_eq_true_iff.mp (by rwa [Tree.hasNumbers] at h)
    cases literal with
    | nil => cases hnumber
    | cons c tail =>
      have hc : isNumberChar c = true := List.all_eq_true.mp hchars c List.mem_cons_self
      have hne : ∀ {d : Char}, isNumberChar d = false → c ≠ d := by
        rintro d hd rfl
        rw [hc] at hd
        cases hd
      refine ⟨c, tail, by rw [write], ?_, hne (by decide)⟩
      simp [isSpace, hne (d := ' ') (by decide), hne (d := '\t') (by decide),
        hne (d := '\n') (by decide), hne (d := '\r') (by decide)]
  | string s => exact ⟨_, _, by rw [write, writeString], rfl, by decide⟩
  | array items => exact ⟨_, _, by rw [write], rfl, by decide⟩
  | object members => exact ⟨_, _, by rw [write], rfl, by decide⟩

theorem Encoder.writeItems_eq_cons (enc : Encoder) {t : Tree} {ts : List Tree}
    (h : Tree.itemsHaveNumbers (t :: ts) = true) :
    ∃ c tail, enc.writeItems (t :: ts) = c :: tail ∧ isSpace c = false ∧ c ≠ ']' := by
  obtain ⟨ht, -⟩ := Bool.and_eq_true_iff.mp (by rwa [Tree.itemsHaveNumbers] at h)
  obtain ⟨c, tail, hwrite, hc⟩ := enc.write_eq_cons ht
  cases ts with
  | nil => exact ⟨c, _, by rw [writeItems, hwrite, List.cons_append], hc⟩
  | cons u ts => exact ⟨c, _, by rw [writeItems, hwrite, List.cons_append], hc⟩

theorem Encoder.writeMember_append (enc : Encoder) (key v rest after : List Char) :
    enc.writeMember key v rest ++ after = enc.writeMember key v (rest ++ after) := by
  simp [writeMember]

theorem Encoder.writeMembers_eq_writeMember (enc : Encoder) (key : List Char) (t : Tree)
    (ms : List (List Char × Tree)) (rest : List Char) :
    ∃ after, enc.writeMembers ((key, t) :: ms) ++ rest =
      enc.writeMember key (enc.write t) after := by
  cases ms with
  | nil => exact ⟨_, by rw [writeMembers, writeMember_append]⟩
  | cons m ms => exact ⟨_, by rw [writeMembers, writeMember_append]⟩

theorem value_word {w : List Char} {t : Tree} {fuel depth : Nat} {rest : List Char}
    (h : value (fuel + 1) depth (w ++ rest) = word w t (w ++ rest)) :
    value (fuel + 1) depth (w ++ rest) = some (t, rest) := by
  rw [h, word, if_pos (List.isPrefixOf_iff_prefix.mpr (List.prefix_append w rest)),
    List.drop_left]

theorem value_array {fuel depth : Nat} {c : Char} {rest : List Char} (hspace : isSpace c = false)
    (hc : c ≠ ']') :
    value (fuel + 1) (depth + 1) ('[' :: c :: rest) =
      (items fuel depth (c :: rest)).map fun p => (.array p.1, p.2) := by
  rw [value, skipSpace_of_head rfl]
  simp only
  rw [if_neg (Nat.succ_ne_zero depth), skipSpace_of_head hspace]
  split
  · rename_i heq
    exact absurd (List.cons.inj heq).1 hc
  · rfl

theorem items_more {fuel depth : Nat} {v rest : List Char} {t : Tree}
    (h : value fuel depth (v ++ ',' :: rest) = some (t, ',' :: rest)) :
    items (fuel + 1) depth (v ++ ',' :: rest) =
      (items fuel depth rest).map fun p => (t :: p.1, p.2) := by
  rw [items, h]
  simp only [Option.bind_eq_bind, Option.bind_some]
  rw [skipSpace_of_head rfl]
  rfl

theorem items_last {fuel depth : Nat} {v rest : List Char} {t : Tree}
    (h : value fuel depth (v ++ ']' :: rest) = some (t, ']' :: rest)) :
    items (fuel + 1) depth (v ++ ']' :: rest) = some ([t], rest) := by
  rw [items, h]
  simp only [Option.bind_eq_bind, Option.bind_some]
  rw [skipSpace_of_head rfl]
  rfl

mutual

/-- With enough fuel and depth the reader finds a written value. -/
theorem Encoder.value_write (enc : Encoder) : ∀ t : Tree, t.hasNumbers = true →
    ∃ n, ∀ fuel depth, n ≤ fuel → n ≤ depth → ∀ c rest, isNumberChar c = false →
      value fuel depth (enc.write t ++ c :: rest) = some (t, c :: rest)
  | .null, _ => by
    refine ⟨1, fun fuel depth hfuel _ c rest _ => ?_⟩
    obtain ⟨fuel, rfl⟩ := Nat.exists_eq_add_of_le' hfuel
    rw [write]
    exact value_word (by rw [value.eq_def]; rfl)
  | .bool true, _ => by
    refine ⟨1, fun fuel depth hfuel _ c rest _ => ?_⟩
    obtain ⟨fuel, rfl⟩ := Nat.exists_eq_add_of_le' hfuel
    rw [write]
    exact value_word (by rw [value.eq_def]; rfl)
  | .bool false, _ => by
    refine ⟨1, fun fuel depth hfuel _ c rest _ => ?_⟩
    obtain ⟨fuel, rfl⟩ := Nat.exists_eq_add_of_le' hfuel
    rw [write]
    exact value_word (by rw [value.eq_def]; rfl)
  | .number literal, h => by
    obtain ⟨hnumber, hchars⟩ := Bool.and_eq_true_iff.mp (by rwa [Tree.hasNumbers] at h)
    refine ⟨1, fun fuel depth hfuel _ c rest hc => ?_⟩
    obtain ⟨fuel, rfl⟩ := Nat.exists_eq_add_of_le' hfuel
    rw [write]
    exact value_number fuel depth hnumber (List.all_eq_true.mp hchars) hc rest
  | .string s, _ => by
    refine ⟨1, fun fuel depth hfuel _ c rest _ => ?_⟩
    obtain ⟨fuel, rfl⟩ := Nat.exists_eq_add_of_le' hfuel
    rw [write]
    exact enc.value_string fuel depth s (c :: rest)
  | .array [], _ => by
    refine ⟨1, fun fuel depth hfuel hdepth c rest _ => ?_⟩
    obtain ⟨fuel, rfl⟩ := Nat.exists_eq_add_of_le' hfuel
    obtain ⟨depth, rfl⟩ := Nat.exists_eq_add_of_le' hdepth
    rw [write, writeItems, value.eq_def]
    rfl
  | .array (t :: items), h => by
    rw [Tree.hasNumbers] at h
    obtain ⟨n, hn⟩ := enc.items_write (t :: items) (List.cons_ne_nil _ _) h
    obtain ⟨d, tail, hhead, hspace, hd⟩ := enc.writeItems_eq_cons h
    refine ⟨n + 1, fun fuel depth hfuel hdepth c rest _ => ?_⟩
    obtain ⟨fuel, rfl⟩ : ∃ k, fuel = k + 1 := ⟨fuel - 1, by omega⟩
    obtain ⟨depth, rfl⟩ : ∃ k, depth = k + 1 := ⟨depth - 1, by omega⟩
    have hitems := hn fuel depth (by omega) (by omega) (c :: rest)
    rw [hhead, List.cons_append] at hitems
    rw [write, hhead, List.cons_append, List.cons_append, value_array hspace hd, hitems]
    rfl
  | .object [], _ => by
    refine ⟨1, fun fuel depth hfuel hdepth c rest _ => ?_⟩
    obtain ⟨fuel, rfl⟩ := Nat.exists_eq_add_of_le' hfuel
    obtain ⟨depth, rfl⟩ := Nat.exists_eq_add_of_le' hdepth
    rw [write, writeMembers, value.eq_def]
    rfl
  | .object ((key, t) :: members), h => by
    rw [Tree.hasNumbers] at h
    obtain ⟨n, hn⟩ := enc.members_write ((key, t) :: members) (List.cons_ne_nil _ _) h
    refine ⟨n + 1, fun fuel depth hfuel hdepth c rest _ => ?_⟩
    obtain ⟨fuel, rfl⟩ : ∃ k, fuel = k + 1 := ⟨fuel - 1, by omega⟩
    obtain ⟨depth, rfl⟩ : ∃ k, depth = k + 1 := ⟨depth - 1, by omega⟩
    have hmembers := hn fuel depth (by omega) (by omega) (c :: rest)
    obtain ⟨after, hafter⟩ := enc.writeMembers_eq_writeMember key t members (c :: rest)
    rw [hafter] at hmembers
    rw [write, List.cons_append, hafter, enc.value_object, hmembers]
    rfl

theorem Encoder.items_write (enc : Encoder) : ∀ ts : List Tree, ts ≠ [] →
    Tree.itemsHaveNumbers ts = true →
      ∃ n, ∀ fuel depth, n ≤ fuel → n ≤ depth → ∀ rest,
        items fuel depth (enc.writeItems ts ++ rest) = some (ts, rest)
  | [], hne, _ => absurd rfl hne
  | [t], _, h => by
    obtain ⟨n, hn⟩ := enc.value_write t (by simpa [Tree.itemsHaveNumbers] using h)
    refine ⟨n + 1, fun fuel depth hfuel hdepth rest => ?_⟩
    obtain ⟨fuel, rfl⟩ : ∃ k, fuel = k + 1 := ⟨fuel - 1, by omega⟩
    rw [writeItems, List.append_assoc, List.singleton_append]
    exact items_last (hn fuel depth (by omega) (by omega) ']' rest rfl)
  | t :: u :: ts, _, h => by
    obtain ⟨ht, hts⟩ := Bool.and_eq_true_iff.mp (by rwa [Tree.itemsHaveNumbers] at h)
    obtain ⟨n, hn⟩ := enc.value_write t ht
    obtain ⟨m, hm⟩ := enc.items_write (u :: ts) (List.cons_ne_nil _ _) hts
    refine ⟨n + m + 1, fun fuel depth hfuel hdepth rest => ?_⟩
    obtain ⟨fuel, rfl⟩ : ∃ k, fuel = k + 1 := ⟨fuel - 1, by omega⟩
    rw [writeItems, List.append_assoc, List.cons_append,
      items_more (hn fuel depth (by omega) (by omega) ',' _ rfl),
      hm fuel depth (by omega) (by omega) rest]
    rfl

theorem Encoder.members_write (enc : Encoder) : ∀ ms : List (List Char × Tree), ms ≠ [] →
    Tree.membersHaveNumbers ms = true →
      ∃ n, ∀ fuel depth, n ≤ fuel → n ≤ depth → ∀ rest,
        members fuel depth (enc.writeMembers ms ++ rest) = some (ms, rest)
  | [], hne, _ => absurd rfl hne
  | [(key, t)], _, h => by
    obtain ⟨n, hn⟩ := enc.value_write t (by simpa [Tree.membersHaveNumbers] using h)
    refine ⟨n + 1, fun fuel depth hfuel hdepth rest => ?_⟩
    obtain ⟨fuel, rfl⟩ : ∃ k, fuel = k + 1 := ⟨fuel - 1, by omega⟩
    rw [writeMembers, enc.writeMember_append]
    exact enc.members_last key rest (hn fuel depth (by omega) (by omega) '}' rest rfl)
  | (key, t) :: member :: ms, _, h => by
    obtain ⟨ht, hms⟩ := Bool.and_eq_true_iff.mp (by rwa [Tree.membersHaveNumbers] at h)
    obtain ⟨n, hn⟩ := enc.value_write t ht
    obtain ⟨m, hm⟩ := enc.members_write (member :: ms) (List.cons_ne_nil _ _) hms
    refine ⟨n + m + 1, fun fuel depth hfuel hdepth rest => ?_⟩
    obtain ⟨fuel, rfl⟩ : ∃ k, fuel = k + 1 := ⟨fuel - 1, by omega⟩
    rw [writeMembers, enc.writeMember_append, List.cons_append,
      enc.members_more key _ (hn fuel depth (by omega) (by omega) ',' _ rfl),
      hm fuel depth (by omega) (by omega) rest]
    rfl

end

/-- Two values with numbers of JSON are written alike only when they are the same. -/
theorem Encoder.write_inj (enc : Encoder) {t u : Tree} (ht : t.hasNumbers = true)
    (hu : u.hasNumbers = true) (h : enc.write t = enc.write u) : t = u := by
  obtain ⟨n, hn⟩ := enc.value_write t ht
  obtain ⟨m, hm⟩ := enc.value_write u hu
  have hread := hn (n + m) (n + m) (by omega) (by omega) ',' [] rfl
  rw [h, hm (n + m) (n + m) (by omega) (by omega) ',' [] rfl] at hread
  exact (Prod.mk.inj (Option.some.inj hread)).1.symm

end Json
