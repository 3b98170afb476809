import Mathlib.Data.List.DropRight
import Mathlib.Data.List.Sort
import Fctf.Lib.Json
import Fctf.Text
import Mathlib.Data.List.Lex
import Mathlib.Data.Char

/-!
JSON texts that the services write: numbers in decimal digits, and what Python's `json.dumps`
makes of a value with its keys in order.
-/

namespace Fctf

/-! ### Numbers -/

theorem isNumberChar_of_mem_repr {n : Int} {d : Char} (h : d ∈ n.repr.toList) :
    Json.isNumberChar d = true ∧ d.toNat < 0x80 := by
  have hdigit : ∀ {d : Char}, d.isDigit = true → Json.isNumberChar d = true ∧ d.toNat < 0x80 := by
    intro d hd
    refine ⟨by simp [Json.isNumberChar, hd], ?_⟩
    have hle : d.toNat ≤ 57 := (Char.isDigit_iff_toNat.mp hd).2
    omega
  cases n with
  | ofNat n => exact hdigit (isDigit_of_mem_repr h)
  | negSucc n =>
    have h' : d ∈ ("-" ++ n.succ.repr).toList := h
    rw [String.toList_append] at h'
    rcases List.mem_append.mp h' with hminus | hrest
    · obtain rfl : d = '-' := by simpa using hminus
      decide
    · exact hdigit (isDigit_of_mem_repr hrest)

theorem head_toDigits {n : Nat} (h : 0 < n) : (Nat.toDigits 10 n).head? ≠ some '0' := by
  induction n using Nat.strong_induction_on with
  | _ n ih =>
    by_cases hsmall : n < 10
    · have hdigit : ∀ k < 10, 0 < k → [k.digitChar].head? ≠ some '0' := by decide
      rw [Nat.toDigits_of_lt_base hsmall]
      exact hdigit n hsmall h
    · rw [Nat.toDigits_of_base_le (by decide) (by omega),
        List.head?_append_of_ne_nil _ Nat.toDigits_ne_nil]
      exact ih (n / 10) (by omega) (by omega)

theorem isUnsigned_repr (n : Nat) : Json.isUnsigned n.repr.toList = true := by
  have hdigits : ∀ c ∈ n.repr.toList, c.isDigit = true := fun c hc => isDigit_of_mem_repr hc
  have hne : n.repr.toList ≠ [] := by
    rw [Nat.toList_repr]
    exact Nat.toDigits_ne_nil
  have hlead : n.repr.toList.head? ≠ some '0' ∨ n.repr.toList.length = 1 := by
    rw [Nat.toList_repr]
    rcases Nat.eq_zero_or_pos n with rfl | hpos
    · exact .inr rfl
    · exact .inl (head_toDigits hpos)
  have htake : n.repr.toList.takeWhile Char.isDigit = n.repr.toList :=
    List.takeWhile_eq_self_iff.mpr hdigits
  have hdrop : n.repr.toList.dropWhile Char.isDigit = [] :=
    List.dropWhile_eq_nil_iff.mpr hdigits
  have hall : Json.isDigits n.repr.toList = true := by
    simp only [Json.isDigits, Bool.and_eq_true, Bool.not_eq_true', List.isEmpty_eq_false_iff,
      List.all_eq_true]
    exact ⟨hne, hdigits⟩
  simp only [Json.isUnsigned, htake, hdrop, hall, Bool.true_and, Bool.and_eq_true,
    Bool.or_eq_true, decide_eq_true_eq]
  exact ⟨hlead, rfl⟩

theorem isNumber_repr (n : Int) : Json.isNumber n.repr.toList = true := by
  cases n with
  | ofNat n =>
    have hunsigned := isUnsigned_repr n
    change Json.isNumber n.repr.toList = true
    unfold Json.isNumber
    split
    · rename_i rest hminus
      have hdigit : Char.isDigit '-' = true :=
        isDigit_of_mem_repr (n := n) (hminus ▸ List.mem_cons_self)
      cases hdigit
    · exact hunsigned
  | negSucc n =>
    have htext : (Int.negSucc n).repr.toList = '-' :: n.succ.repr.toList :=
      String.toList_append ..
    rw [htext]
    exact isUnsigned_repr n.succ

theorem readsBefore_repr {c : Char} (h : Json.isNumberChar c = false) (depth : Nat) (n : Int) :
    Json.ReadsBefore c depth n.repr.toList (.number n.repr.toList) := by
  intro fuel rest
  apply Json.value_number _ _ (isNumber_repr n)
  · exact fun d hd => (isNumberChar_of_mem_repr hd).1
  · exact h

/-! ### Python -/

theorem char_of_toNat {c d : Char} (h : c.toNat = d.toNat) : c = d := by
  rw [← Char.ofNat_toNat c, h, Char.ofNat_toNat]

/-- The short escapes of Python's `json`. -/
def pythonShortName (c : Char) : Option Char :=
  if c.toNat = 8 then some 'b'
  else if c.toNat = 9 then some 't'
  else if c.toNat = 10 then some 'n'
  else if c.toNat = 12 then some 'f'
  else if c.toNat = 13 then some 'r'
  else if c.toNat = 0x22 then some '"'
  else if c.toNat = 0x5C then some '\\'
  else none

/-- `ensure_ascii`, with digits in lower case. -/
def pythonEncoder : Json.Encoder where
  isPlain c := 0x20 ≤ c.toNat && c.toNat ≤ 0x7E && c.toNat ≠ 0x22 && c.toNat ≠ 0x5C
  short := pythonShortName
  digit n := if n < 10 then Char.ofNat (48 + n) else Char.ofNat (87 + n)
  plain_ok c h := by
    simp only [Bool.and_eq_true, decide_eq_true_eq] at h
    refine ⟨?_, ?_, by omega⟩
    · rintro rfl
      exact absurd h (by decide)
    · rintro rfl
      exact absurd h (by decide)
  short_ok c e h := by
    unfold pythonShortName at h
    split_ifs at h with h8 h9 h10 h12 h13 h34 h92 <;> obtain rfl := Option.some.inj h
    · exact ⟨by decide, congrArg some (char_of_toNat h8).symm⟩
    · exact ⟨by decide, congrArg some (char_of_toNat h9).symm⟩
    · exact ⟨by decide, congrArg some (char_of_toNat h10).symm⟩
    · exact ⟨by decide, congrArg some (char_of_toNat h12).symm⟩
    · exact ⟨by decide, congrArg some (char_of_toNat h13).symm⟩
    · exact ⟨by decide, congrArg some (char_of_toNat h34).symm⟩
    · exact ⟨by decide, congrArg some (char_of_toNat h92).symm⟩

mutual

/-- The members of every object in the order of their keys. -/
def sortKeys : Json.Tree → Json.Tree
  | .array items => .array (sortItems items)
  | .object members => .object ((sortMembers members).insertionSort fun a b => a.1 ≤ b.1)
  | t => t

def sortItems : List Json.Tree → List Json.Tree
  | [] => []
  | t :: rest => sortKeys t :: sortItems rest

def sortMembers : List (List Char × Json.Tree) → List (List Char × Json.Tree)
  | [] => []
  | (key, t) :: rest => (key, sortKeys t) :: sortMembers rest

end

/-- `json.dumps` with `sort_keys` and without blanks. -/
def dumps (t : Json.Tree) : String := String.ofList (pythonEncoder.write (sortKeys t))

theorem membersHaveNumbers_iff {members : List (List Char × Json.Tree)} :
    Json.Tree.membersHaveNumbers members = true ↔ ∀ m ∈ members, m.2.hasNumbers = true := by
  induction members with
  | nil => simp [Json.Tree.membersHaveNumbers]
  | cons m rest ih =>
    obtain ⟨key, t⟩ := m
    rw [Json.Tree.membersHaveNumbers, Bool.and_eq_true, ih, List.forall_mem_cons]

mutual

theorem hasNumbers_sortKeys : ∀ {t : Json.Tree}, t.hasNumbers = true →
    (sortKeys t).hasNumbers = true
  | .null, _ | .bool _, _ | .string _, _ => by rw [sortKeys] <;> simp [Json.Tree.hasNumbers]
  | .number _, h => by rwa [sortKeys] <;> simp
  | .array items, h => by
    rw [Json.Tree.hasNumbers] at h
    rw [sortKeys, Json.Tree.hasNumbers]
    exact itemsHaveNumbers_sortItems h
  | .object members, h => by
    rw [Json.Tree.hasNumbers] at h
    rw [sortKeys, Json.Tree.hasNumbers, membersHaveNumbers_iff]
    intro m hm
    exact membersHaveNumbers_iff.mp (membersHaveNumbers_sortMembers h) m
      ((List.mem_insertionSort _).mp hm)

theorem itemsHaveNumbers_sortItems : ∀ {items : List Json.Tree},
    Json.Tree.itemsHaveNumbers items = true →
      Json.Tree.itemsHaveNumbers (sortItems items) = true
  | [], _ => by rw [sortItems, Json.Tree.itemsHaveNumbers]
  | t :: rest, h => by
    obtain ⟨ht, hrest⟩ := Bool.and_eq_true_iff.mp (by rwa [Json.Tree.itemsHaveNumbers] at h)
    rw [sortItems, Json.Tree.itemsHaveNumbers, hasNumbers_sortKeys ht,
      itemsHaveNumbers_sortItems hrest]
    rfl

theorem membersHaveNumbers_sortMembers : ∀ {members : List (List Char × Json.Tree)},
    Json.Tree.membersHaveNumbers members = true →
      Json.Tree.membersHaveNumbers (sortMembers members) = true
  | [], _ => by rw [sortMembers, Json.Tree.membersHaveNumbers]
  | (key, t) :: rest, h => by
    obtain ⟨ht, hrest⟩ := Bool.and_eq_true_iff.mp (by rwa [Json.Tree.membersHaveNumbers] at h)
    rw [sortMembers, Json.Tree.membersHaveNumbers, hasNumbers_sortKeys ht,
      membersHaveNumbers_sortMembers hrest]
    rfl

end

/-- Two values are dumped alike only when they differ in the order of keys. -/
theorem dumps_inj {t u : Json.Tree} (ht : t.hasNumbers = true) (hu : u.hasNumbers = true)
    (h : dumps t = dumps u) : sortKeys t = sortKeys u :=
  pythonEncoder.write_inj (hasNumbers_sortKeys ht) (hasNumbers_sortKeys hu)
    (String.ofList_injective h)

end Fctf
