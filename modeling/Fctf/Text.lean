import Std.Data.String.ToNat
import Std.Data.String.ToInt
import Mathlib.Data.Int.Basic
import Mathlib.Data.List.Basic
import Mathlib.Data.List.DropRight
import Mathlib.Algebra.Order.Ring.Int

/-!
The string operations of .NET that the services use, and the checks of texts that several of them
share. They are written over lists of characters so that they can be evaluated.
-/

namespace Fctf

/-- `char.IsWhiteSpace`. -/
def isWhiteSpace (c : Char) : Bool :=
  let n := c.toNat
  (9 ≤ n && n ≤ 13) || n == 0x20 || n == 0x85 || n == 0xA0 || n == 0x1680 ||
    (0x2000 ≤ n && n ≤ 0x200A) || n == 0x2028 || n == 0x2029 || n == 0x202F ||
    n == 0x205F || n == 0x3000

/-- `string.IsNullOrWhiteSpace` on a string that is not null. -/
def isNullOrWhiteSpace (s : String) : Bool := s.toList.all isWhiteSpace

/-- `string.Trim`. -/
def trim (s : String) : String :=
  String.ofList ((s.toList.dropWhile isWhiteSpace).reverse.dropWhile isWhiteSpace).reverse

/-- `string.Length`, in units of UTF-16. -/
def utf16Length (s : String) : Nat :=
  (s.toList.map fun c => if c.toNat < 0x10000 then 1 else 2).sum

/-- `TrimEnd('/')`. -/
def trimEndSlash (s : String) : String :=
  String.ofList (s.toList.reverse.dropWhile (· == '/')).reverse

/-- `string.Equals` with `OrdinalIgnoreCase`, against a text in ASCII. -/
def equalsIgnoreCase (s ascii : String) : Bool :=
  s.toList.map Char.toUpper == ascii.toList.map Char.toUpper

/-- Go's `strings.HasPrefix`. -/
def hasPrefix (s pre : String) : Bool := pre.toList.isPrefixOf s.toList

example : trim "  Web \t" = "Web" := by decide

/-! ### Numbers in a text -/

/-- A number in decimal digits. -/
def decimal (s : List Char) : Option Nat :=
  if s ≠ [] ∧ s.all Char.isDigit = true then some (Nat.ofDigitChars 10 s 0) else none

/-- A number that may have a sign. -/
def signedDecimal : List Char → Option Int
  | '-' :: s => (decimal s).map fun n => -(n : Int)
  | '+' :: s => (decimal s).map fun n => (n : Int)
  | s => (decimal s).map fun n => (n : Int)

theorem isDigit_of_mem_repr {n : Nat} {d : Char} (h : d ∈ n.repr.toList) : d.isDigit = true := by
  rw [Nat.toList_repr] at h
  exact Nat.isDigit_of_mem_toDigits (by decide) (by decide) h

theorem repr_ne_nil (n : Nat) : n.repr.toList ≠ [] := by
  rw [Nat.toList_repr]
  exact Nat.toDigits_ne_nil

theorem decimal_repr (n : Nat) : decimal n.repr.toList = some n := by
  have hdigits : n.repr.toList.all Char.isDigit = true :=
    List.all_eq_true.mpr fun _ hc => isDigit_of_mem_repr hc
  rw [decimal, if_pos ⟨repr_ne_nil n, hdigits⟩, Nat.toList_repr, Nat.ofDigitChars_ten_toDigits]

theorem signedDecimal_repr (n : Nat) : signedDecimal n.repr.toList = some (n : Int) := by
  have hhead : ∀ c ∈ n.repr.toList, c ≠ '-' ∧ c ≠ '+' := by
    intro c hc
    have hdigit := isDigit_of_mem_repr hc
    constructor
    · rintro rfl
      cases hdigit
    · rintro rfl
      cases hdigit
  unfold signedDecimal
  split
  · rename_i s hs
    exact absurd rfl (hhead '-' (hs ▸ List.mem_cons_self)).1
  · rename_i s hs
    exact absurd rfl (hhead '+' (hs ▸ List.mem_cons_self)).2
  · rw [decimal_repr]
    rfl

/-- A text without the white space at its ends. -/
def trimWhile (isSpace : Char → Bool) (text : List Char) : List Char :=
  (text.dropWhile isSpace).rdropWhile isSpace

/-- The white space that may stand around a number. -/
def isNumberSpace (c : Char) : Bool := c = ' ' || (9 ≤ c.toNat && c.toNat ≤ 13)

/-- `TryParse` of a type of integers, from its least to its greatest. -/
def tryParse (low high : Int) (s : String) : Option Int :=
  (signedDecimal (trimWhile isNumberSpace s.toList)).filter fun n => low ≤ n && n ≤ high

/-- `long.TryParse`. -/
def tryParseLong (s : String) : Option Int := tryParse (-(2 ^ 63)) (2 ^ 63 - 1) s

theorem trimWhile_eq_self {isSpace : Char → Bool} {text : List Char}
    (h : ∀ c ∈ text, isSpace c = false) : trimWhile isSpace text = text := by
  have hfirst : text.dropWhile isSpace = text := by
    cases text with
    | nil => rfl
    | cons c text => rw [List.dropWhile_cons_of_neg (by simp [h c List.mem_cons_self])]
  rw [trimWhile, hfirst, List.rdropWhile_eq_self_iff]
  intro hne
  simp [h _ (List.getLast_mem hne)]

/-- The characters of a number. -/
def IsNumeral (c : Char) : Prop := c = '-' ∨ c.isDigit = true

theorem isNumeral_of_mem {n : Int} {c : Char} (h : c ∈ (toString n).toList) : IsNumeral c := by
  cases n with
  | ofNat n => exact .inr (isDigit_of_mem_repr h)
  | negSucc n =>
    have htext : toString (Int.negSucc n) = "-" ++ Nat.repr (n + 1) := rfl
    rw [htext, String.toList_append] at h
    rcases List.mem_append.mp h with hminus | hdigit
    · exact .inl (by simpa using hminus)
    · exact .inr (isDigit_of_mem_repr hdigit)

theorem IsNumeral.toNat {c : Char} (h : IsNumeral c) :
    c.toNat = 45 ∨ 48 ≤ c.toNat ∧ c.toNat ≤ 57 := by
  rcases h with rfl | hdigit
  · exact .inl rfl
  · exact .inr (Char.isDigit_iff_toNat.mp hdigit)

theorem IsNumeral.isNumberSpace {c : Char} (h : IsNumeral c) : Fctf.isNumberSpace c = false := by
  have hrange := h.toNat
  have hblank : c ≠ ' ' := by
    rintro rfl
    revert hrange
    decide
  simp only [Fctf.isNumberSpace, Bool.or_eq_false_iff, Bool.and_eq_false_iff,
    decide_eq_false_iff_not]
  exact ⟨hblank, by omega⟩

theorem IsNumeral.isWhiteSpace {c : Char} (h : IsNumeral c) : Fctf.isWhiteSpace c = false := by
  have hrange := h.toNat
  simp only [Fctf.isWhiteSpace, Bool.or_eq_false_iff, Bool.and_eq_false_iff, beq_eq_false_iff_ne,
    decide_eq_false_iff_not]
  omega

theorem IsNumeral.toUpper {c : Char} (h : IsNumeral c) : c.toUpper = c := by
  have hrange := h.toNat
  refine dif_neg ?_
  intro hlower
  have hlow : 97 ≤ c.toNat := hlower.1
  omega

theorem IsNumeral.toLower {c : Char} (h : IsNumeral c) : c.toLower = c := by
  have hrange := h.toNat
  refine dif_neg ?_
  intro hupper
  have hlow : 65 ≤ c.toNat := hupper.1
  omega

theorem trimWhile_toString {isSpace : Char → Bool} (h : ∀ c, IsNumeral c → isSpace c = false)
    (n : Int) : trimWhile isSpace (toString n).toList = (toString n).toList :=
  trimWhile_eq_self fun c hc => h c (isNumeral_of_mem hc)

theorem signedDecimal_toString (n : Int) : signedDecimal (toString n).toList = some n := by
  cases n with
  | ofNat n => exact signedDecimal_repr n
  | negSucc n =>
    have htext : (toString (Int.negSucc n)).toList = '-' :: (Nat.repr (n + 1)).toList :=
      String.toList_append ..
    rw [htext, signedDecimal, decimal_repr]
    rfl

theorem tryParse_toString {low high n : Int} (h : low ≤ n ∧ n ≤ high) :
    tryParse low high (toString n) = some n := by
  rw [tryParse, trimWhile_toString fun c hc => hc.isNumberSpace, signedDecimal_toString]
  simp [h.1, h.2]

theorem tryParse_eq_some {low high m n : Int} (h : tryParse low high (toString n) = some m) :
    m = n := by
  rw [tryParse, trimWhile_toString fun c hc => hc.isNumberSpace, signedDecimal_toString] at h
  exact (Option.some.inj (Option.filter_eq_some_iff.mp h).1).symm

/-! ### Names and passwords -/

/-- `char.IsControl`. -/
def isControl (c : Char) : Bool := c.toNat < 0x20 || (0x7F ≤ c.toNat && c.toNat ≤ 0x9F)

/-- `InputValidation.IsPlainName`. -/
def isPlainName (value : String) (maxLength : Nat) : Bool :=
  !isNullOrWhiteSpace value && utf16Length (trim value) ≤ maxLength &&
    !value.toList.any fun c => c = '<' || c = '>' || isControl c

/-- The kinds of characters that .NET tells apart. -/
structure CharKinds where
  isUpper : Char → Bool
  isLower : Char → Bool
  isDigit : Char → Bool

def passwordSpecialCharacters : List Char := "!@#$%^&*(),.?\":\x7b\x7d|<>".toList

def CharKinds.isValidPasswordPolicy (kinds : CharKinds) (password : String) : Bool :=
  8 ≤ utf16Length password && utf16Length password ≤ 20 && password.toList.any kinds.isUpper &&
    password.toList.any kinds.isLower && password.toList.any kinds.isDigit &&
    password.toList.any fun c => c ∈ passwordSpecialCharacters

/-! ### Keys that are made of ids -/

theorem underscore_notMem_repr (n : Nat) : '_' ∉ (Nat.repr n).toList := by
  intro hmem
  cases isDigit_of_mem_repr hmem

theorem underscore_notMem_toString (t : Int) : '_' ∉ (toString t).toList := by
  cases t with
  | ofNat n => exact underscore_notMem_repr n
  | negSucc n =>
    have hminus : toString (Int.negSucc n) = "-" ++ Nat.repr (n + 1) := rfl
    rw [hminus, String.toList_append]
    simp

theorem toList_idKey (name : String) (c : Nat) (t : Int) :
    (name ++ Nat.repr c ++ "_" ++ toString t).toList =
      name.toList ++ ((Nat.repr c).toList ++ '_' :: (toString t).toList) := by
  have hsep : "_".toList = ['_'] := by simp
  rw [String.toList_append, String.toList_append, String.toList_append, hsep,
    List.append_assoc, List.append_assoc, List.singleton_append]

/-- A key that is made of a name and two ids tells the ids. -/
theorem idKey_inj {name : String} {c c' : Nat} {t t' : Int} :
    name ++ Nat.repr c ++ "_" ++ toString t = name ++ Nat.repr c' ++ "_" ++ toString t' ↔
      c = c' ∧ t = t' := by
  refine ⟨fun h => ?_, fun ⟨hc, ht⟩ => by rw [hc, ht]⟩
  have hlist := congrArg String.toList h
  rw [toList_idKey, toList_idKey, List.append_cancel_left_eq] at hlist
  obtain ⟨hc, -, ht⟩ := (List.append_cons_inj_of_notMem (underscore_notMem_repr c)
    (underscore_notMem_toString t)).mp hlist
  exact ⟨Nat.repr_inj.mp (String.toList_inj.mp hc), Int.repr_inj.mp (String.toList_inj.mp ht)⟩

/-- A name and an id with what separates them begin the keys of that id. -/
theorem hasPrefix_idKey {name : String} {c c' : Nat} {t : Int} :
    hasPrefix (name ++ Nat.repr c ++ "_" ++ toString t) (name ++ Nat.repr c' ++ "_") = true ↔
      c = c' := by
  have hsep : "_".toList = ['_'] := by simp
  have hpre : (name ++ Nat.repr c' ++ "_").toList =
      name.toList ++ ((Nat.repr c').toList ++ ['_']) := by
    rw [String.toList_append, String.toList_append, hsep, List.append_assoc]
  rw [hasPrefix, List.isPrefixOf_iff_prefix, toList_idKey, hpre, List.prefix_append_right_inj]
  constructor
  · rintro ⟨rest, hrest⟩
    rw [List.append_assoc, List.singleton_append] at hrest
    have hids := (List.append_cons_inj_of_notMem (underscore_notMem_repr c)
      (underscore_notMem_toString t)).mp hrest.symm
    exact Nat.repr_inj.mp (String.toList_inj.mp hids.1)
  · rintro rfl
    exact ⟨(toString t).toList, by simp⟩

/-- What the database's collation takes for equal. It ignores case, and may take more
texts for equal. -/
structure Collation where
  eq : String → String → Bool
  refl : ∀ s, eq s s = true
  symm : ∀ s t, eq s t = true → eq t s = true
  trans : ∀ s t u, eq s t = true → eq t u = true → eq s u = true
  ofUpper : ∀ s t, s.toList.map Char.toUpper = t.toList.map Char.toUpper → eq s t = true

/-- Equality up to case. -/
def Collation.ignoreCase : Collation where
  eq s t := s.toList.map Char.toUpper == t.toList.map Char.toUpper
  refl s := by simp
  symm s t h := by simpa using (beq_iff_eq.mp h).symm
  trans s t u h h' := by simpa using (beq_iff_eq.mp h).trans (beq_iff_eq.mp h')
  ofUpper s t h := by simpa using h

end Fctf
