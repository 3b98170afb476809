import Fctf.Lib.Json

/-!
Lower case over the character data of Unicode: of a whole text, where one letter becomes two
characters and the form of a sigma depends on its neighbours, and of the single units of UTF-16.
-/

/-- `i` with a dot: its lower case is `i` and a combining dot. -/
def dottedI : Char := 'İ'

def combiningDot : Char := Char.ofNat 0x307

/-- The simple lower case of a character, its properties, and the lower case of a unit. -/
structure CaseData where
  lower : Char → Char
  cased : Char → Bool
  ignorable : Char → Bool
  lowerUnit : Nat → Nat
  cased_lower : ∀ c, cased (lower c) = cased c
  ignorable_lower : ∀ c, ignorable (lower c) = ignorable c
  cased_letter : ∀ c ∈ ['i', 'σ', 'ς'], cased c = true ∧ ignorable c = false
  ignorable_dot : ignorable combiningDot = true
  lower_eq_i : ∀ c, lower c = 'i' ↔ c = 'i' ∨ c = 'I' ∨ c = dottedI
  lower_eq_dot : ∀ c, lower c = combiningDot ↔ c = combiningDot
  lower_eq_sigma : ∀ c, lower c = 'σ' ↔ c = 'σ' ∨ c = 'Σ'
  lower_eq_finalSigma : ∀ c, lower c = 'ς' ↔ c = 'ς'
  lower_ne_dottedI : ∀ c, lower c ≠ dottedI
  /-- Sixteen bits stay sixteen bits. -/
  lower_unit : ∀ c, c.toNat < 0x10000 → (lower c).toNat < 0x10000
  lowerUnit_eq : ∀ c, c.toNat < 0x10000 → c ≠ dottedI → lowerUnit c.toNat = (lower c).toNat
  lowerUnit_dottedI : lowerUnit dottedI.toNat = dottedI.toNat
  lowerUnit_surrogate : ∀ n, 0xD800 ≤ n → n < 0xE000 → lowerUnit n = n

namespace CaseData

variable (d : CaseData)

/-! ### Lower case of a text -/

/-- The first character that is not passed over is a letter with a case. -/
def meetsCased (l : List Char) : Bool := (l.find? fun c => !d.ignorable c).any d.cased

/-- A sigma at the end of a word; `before` is what comes before it, backwards. -/
def isFinal (before after : List Char) : Bool := d.meetsCased before && !d.meetsCased after

def lowerSigma (before after : List Char) : Char := if d.isFinal before after then 'ς' else 'σ'

/-- The lower case of a character that is not `dottedI`. -/
def lowerOne (before : List Char) (c : Char) (after : List Char) : Char :=
  if c = 'Σ' then d.lowerSigma before after else d.lower c

def lowerChar (before : List Char) (c : Char) (after : List Char) : List Char :=
  if c = dottedI then ['i', combiningDot] else [d.lowerOne before c after]

/-- The lower case of `s` between `before`, backwards, and `after`. -/
def lowerWithin (before : List Char) (s after : List Char) : List Char :=
  match s with
  | [] => []
  | c :: rest => d.lowerChar before c (rest ++ after) ++ lowerWithin (c :: before) rest after

def lowerText (s : List Char) : List Char := d.lowerWithin [] s []

/-! ### What the neighbours decide -/

theorem meetsCased_cons (c : Char) (l : List Char) :
    d.meetsCased (c :: l) = if d.ignorable c then d.meetsCased l else d.cased c := by
  rw [meetsCased, List.find?_cons]
  cases d.ignorable c <;> rfl

theorem meetsCased_append (l : List Char) {r r' : List Char}
    (h : d.meetsCased r = d.meetsCased r') : d.meetsCased (l ++ r) = d.meetsCased (l ++ r') := by
  induction l with
  | nil => exact h
  | cons c l ih => rw [List.cons_append, List.cons_append, meetsCased_cons, meetsCased_cons, ih]

theorem lowerChar_congr {before before' after after' : List Char} (c : Char)
    (hbefore : d.meetsCased before = d.meetsCased before')
    (hafter : d.meetsCased after = d.meetsCased after') :
    d.lowerChar before c after = d.lowerChar before' c after' := by
  have hfinal : d.isFinal before after = d.isFinal before' after' := by
    rw [isFinal, isFinal, hbefore, hafter]
  rw [lowerChar, lowerChar, lowerOne, lowerOne, lowerSigma, lowerSigma, hfinal]

theorem lowerWithin_congr {before before' after after' : List Char} (s : List Char)
    (hbefore : d.meetsCased before = d.meetsCased before')
    (hafter : d.meetsCased after = d.meetsCased after') :
    d.lowerWithin before s after = d.lowerWithin before' s after' := by
  induction s generalizing before before' with
  | nil => rfl
  | cons c rest ih =>
    have hrest := d.meetsCased_append rest hafter
    have hcons : d.meetsCased (c :: before) = d.meetsCased (c :: before') := by
      rw [meetsCased_cons, meetsCased_cons, hbefore]
    rw [lowerWithin, lowerWithin, ih hcons, d.lowerChar_congr c hbefore hrest]

theorem lowerWithin_append (before u v after : List Char) :
    d.lowerWithin before (u ++ v) after =
      d.lowerWithin before u (v ++ after) ++ d.lowerWithin (u.reverse ++ before) v after := by
  induction u generalizing before with
  | nil => rfl
  | cons c u ih =>
    rw [List.cons_append, lowerWithin, lowerWithin, ih, List.append_assoc, List.append_assoc,
      List.reverse_cons, List.append_assoc]
    rfl

theorem lowerText_split (u v : List Char) :
    d.lowerText (u ++ v) = d.lowerWithin [] u v ++ d.lowerWithin u.reverse v [] := by
  rw [lowerText, lowerWithin_append, List.append_nil, List.append_nil]

theorem lowerText_split_cons (u : List Char) (c : Char) (v : List Char) :
    d.lowerText (u ++ c :: v) = d.lowerWithin [] u (c :: v) ++
      (d.lowerChar u.reverse c v ++ d.lowerWithin (c :: u.reverse) v []) := by
  rw [lowerText_split, lowerWithin, List.append_nil]

/-- Characters of one kind are passed over, or end the search, alike. -/
def kind (c : Char) : Bool × Bool := (d.cased c, d.ignorable c)

theorem meetsCased_eq_of_kinds {l l' : List Char} (h : l.map d.kind = l'.map d.kind) :
    d.meetsCased l = d.meetsCased l' := by
  have hkinds : ∀ l : List Char,
      d.meetsCased l = ((l.map d.kind).find? fun k => !k.2).any Prod.fst := by
    intro l
    rw [List.find?_map, Option.any_map]
    rfl
  rw [hkinds, hkinds, h]

theorem isFinal_eq_of_kinds {before before' after after' : List Char}
    (hbefore : before.map d.kind = before'.map d.kind)
    (hafter : after.map d.kind = after'.map d.kind) :
    d.isFinal before after = d.isFinal before' after' := by
  rw [isFinal, isFinal, d.meetsCased_eq_of_kinds hbefore, d.meetsCased_eq_of_kinds hafter]

theorem kind_lower (c : Char) : d.kind (d.lower c) = d.kind c := by
  rw [kind, kind, cased_lower, ignorable_lower]

theorem kind_of_lower_eq {x y : Char} (h : d.lower x = d.lower y) : d.kind x = d.kind y := by
  rw [← kind_lower, h, kind_lower]

theorem kind_letter {c : Char} (h : c ∈ ['i', 'σ', 'ς']) : d.kind c = (true, false) := by
  rw [kind, (d.cased_letter c h).1, (d.cased_letter c h).2]

theorem lower_sigma : d.lower 'Σ' = 'σ' := (d.lower_eq_sigma 'Σ').mpr (.inr rfl)

theorem kind_sigma {c : Char} (h : c ∈ ['Σ', 'σ', 'ς']) : d.kind c = (true, false) := by
  simp only [List.mem_cons, List.not_mem_nil, or_false] at h
  rcases h with rfl | rfl | rfl
  · rw [← d.kind_lower, lower_sigma, d.kind_letter (by simp)]
  · exact d.kind_letter (by simp)
  · exact d.kind_letter (by simp)

theorem kind_of_lower_i {c : Char} (h : d.lower c = 'i') : d.kind c = (true, false) := by
  rw [← d.kind_lower, h, d.kind_letter (by simp)]

theorem meetsCased_of_kind {c : Char} (h : d.kind c = (true, false)) (l : List Char) :
    d.meetsCased (c :: l) = true := by
  obtain ⟨hcased, hignorable⟩ := Prod.mk.inj h
  rw [meetsCased_cons, hignorable]
  exact hcased

theorem kind_lowerOne (before : List Char) (c : Char) (after : List Char) :
    d.kind (d.lowerOne before c after) = d.kind c := by
  unfold lowerOne lowerSigma
  split_ifs with hc hfinal
  · rw [hc, d.kind_sigma (c := 'Σ') (by simp), d.kind_letter (by simp)]
  · rw [hc, d.kind_sigma (c := 'Σ') (by simp), d.kind_letter (by simp)]
  · exact d.kind_lower c

/-! ### Texts without a dotted letter -/

theorem lowerWithin_eq_map_kind {s : List Char} (hs : dottedI ∉ s) (before after : List Char) :
    (d.lowerWithin before s after).map d.kind = s.map d.kind := by
  induction s generalizing before with
  | nil => rfl
  | cons c rest ih =>
    rw [List.mem_cons, not_or] at hs
    rw [lowerWithin, lowerChar, if_neg (Ne.symm hs.1), List.singleton_append, List.map_cons,
      List.map_cons, kind_lowerOne, ih hs.2]

theorem length_lowerWithin {s : List Char} (hs : dottedI ∉ s) (before after : List Char) :
    (d.lowerWithin before s after).length = s.length := by
  have hkinds := congrArg List.length (d.lowerWithin_eq_map_kind hs before after)
  rwa [List.length_map, List.length_map] at hkinds

theorem getElem?_lowerWithin {s : List Char} (hs : dottedI ∉ s) (before after : List Char)
    (k : Nat) : (d.lowerWithin before s after)[k]? =
      s[k]?.map fun c =>
        d.lowerOne ((s.take k).reverse ++ before) c (s.drop (k + 1) ++ after) := by
  induction s generalizing before k with
  | nil => rfl
  | cons c rest ih =>
    rw [List.mem_cons, not_or] at hs
    rw [lowerWithin, lowerChar, if_neg (Ne.symm hs.1), List.singleton_append]
    cases k with
    | zero => rfl
    | succ k =>
      rw [List.getElem?_cons_succ, List.getElem?_cons_succ, ih hs.2, List.take_succ_cons,
        List.reverse_cons, List.append_assoc, List.singleton_append, List.drop_succ_cons]

theorem getElem?_lowerText {s : List Char} (hs : dottedI ∉ s) (k : Nat) :
    (d.lowerText s)[k]? =
      s[k]?.map fun c => d.lowerOne (s.take k).reverse c (s.drop (k + 1)) := by
  have h := d.getElem?_lowerWithin hs [] [] k
  simp only [List.append_nil] at h
  exact h

/-- The lower case of a text without a dotted letter has an `i` only where the text has one. -/
theorem lower_of_lowerOne {before after : List Char} {c e : Char} (he : e ≠ 'σ') (he' : e ≠ 'ς')
    (h : d.lowerOne before c after = e) : d.lower c = e := by
  unfold lowerOne lowerSigma at h
  split_ifs at h with hc hfinal
  · exact absurd h.symm he'
  · exact absurd h.symm he
  · exact h

/-! ### Texts that differ in one place -/

theorem kind_dottedI : d.kind dottedI = (true, false) :=
  d.kind_of_lower_i ((d.lower_eq_i dottedI).mpr (.inr (.inr rfl)))

/-- A dotted letter and the two characters of its lower case are lowered to the same text. -/
theorem lowerText_dottedI {x : Char} (hx : d.lower x = 'i') (hne : x ≠ dottedI)
    (u v : List Char) :
    d.lowerText (u ++ x :: combiningDot :: v) = d.lowerText (u ++ dottedI :: v) := by
  have hsigma : x ≠ 'Σ' := by
    rintro rfl
    rw [lower_sigma] at hx
    exact absurd hx (by decide)
  have hdotne : combiningDot ≠ dottedI := by decide
  have hdotsigma : combiningDot ≠ 'Σ' := by decide
  have hkind := d.kind_of_lower_i hx
  have hafter : d.meetsCased (x :: combiningDot :: v) = d.meetsCased (dottedI :: v) := by
    rw [d.meetsCased_of_kind hkind, d.meetsCased_of_kind d.kind_dottedI]
  have hbefore : d.meetsCased (combiningDot :: x :: u.reverse) =
      d.meetsCased (dottedI :: u.reverse) := by
    rw [meetsCased_cons, d.ignorable_dot, if_pos rfl, d.meetsCased_of_kind hkind,
      d.meetsCased_of_kind d.kind_dottedI]
  rw [lowerText_split_cons, lowerText_split_cons, d.lowerWithin_congr u rfl hafter, lowerWithin,
    d.lowerWithin_congr v hbefore rfl]
  simp only [lowerChar, lowerOne, if_neg hne, if_neg hsigma, hx, if_neg hdotne, if_neg hdotsigma,
    if_true, (d.lower_eq_dot combiningDot).mpr rfl, List.cons_append, List.nil_append]

theorem lowerText_last_dottedI {x : Char} (hx : d.lower x = 'i') (hne : x ≠ dottedI)
    (u : List Char) :
    d.lowerText (u ++ [dottedI]) = d.lowerText (u ++ [x]) ++ [combiningDot] := by
  have hsigma : x ≠ 'Σ' := by
    rintro rfl
    rw [lower_sigma] at hx
    exact absurd hx (by decide)
  have hafter : d.meetsCased [x] = d.meetsCased [dottedI] := by
    rw [d.meetsCased_of_kind (d.kind_of_lower_i hx), d.meetsCased_of_kind d.kind_dottedI]
  rw [lowerText_split_cons, lowerText_split_cons, d.lowerWithin_congr u rfl hafter]
  simp only [lowerWithin, lowerChar, lowerOne, if_neg hne, if_neg hsigma, hx, if_true,
    List.append_nil, List.append_assoc, List.singleton_append]

/-- Letters of one kind in one place: the texts are lowered alike if the letters are. -/
theorem lowerText_replace_iff {x y : Char} (hkind : d.kind x = d.kind y) (u v : List Char) :
    d.lowerText (u ++ x :: v) = d.lowerText (u ++ y :: v) ↔
      d.lowerChar u.reverse x v = d.lowerChar u.reverse y v := by
  have hafter : d.meetsCased (x :: v) = d.meetsCased (y :: v) :=
    d.meetsCased_eq_of_kinds (by rw [List.map_cons, List.map_cons, hkind])
  have hbefore : d.meetsCased (x :: u.reverse) = d.meetsCased (y :: u.reverse) :=
    d.meetsCased_eq_of_kinds (by rw [List.map_cons, List.map_cons, hkind])
  rw [lowerText_split_cons, lowerText_split_cons, d.lowerWithin_congr u rfl hafter,
    d.lowerWithin_congr v hbefore rfl, List.append_cancel_left_eq, List.append_cancel_right_eq]

/-! ### Units -/

/-- The character that the units of a character become. -/
def unitLower (c : Char) : Char := if c.toNat < 0x10000 ∧ c ≠ dottedI then d.lower c else c

theorem unitLower_of_lt {c : Char} (h : c.toNat < 0x10000) (hne : c ≠ dottedI) :
    d.unitLower c = d.lower c := if_pos ⟨h, hne⟩

theorem unitLower_of_le {c : Char} (h : 0x10000 ≤ c.toNat) : d.unitLower c = c :=
  if_neg fun hlt => absurd hlt.1 (Nat.not_lt.mpr h)

theorem unitLower_toNat_lt {c : Char} (hne : c ≠ dottedI) :
    (d.unitLower c).toNat < 0x10000 ↔ c.toNat < 0x10000 := by
  rcases Nat.lt_or_ge c.toNat 0x10000 with h | h
  · rw [d.unitLower_of_lt h hne]
    exact iff_of_true (d.lower_unit c h) h
  · rw [d.unitLower_of_le h]

theorem unitLower_eq_sigma {c : Char} (hne : c ≠ dottedI) :
    d.unitLower c = 'σ' ↔ d.lower c = 'σ' := by
  rcases Nat.lt_or_ge c.toNat 0x10000 with h | h
  · rw [d.unitLower_of_lt h hne]
  · rw [d.unitLower_of_le h, lower_eq_sigma]
    constructor
    · exact .inl
    · rintro (hc | hc)
      · exact hc
      · rw [hc] at h
        exact absurd h (by decide)

theorem unitLower_eq_dottedI {c : Char} : d.unitLower c = dottedI ↔ c = dottedI := by
  unfold unitLower
  split_ifs with h
  · exact iff_of_false (d.lower_ne_dottedI c) h.2
  · exact Iff.rfl

theorem kind_unitLower (c : Char) : d.kind (d.unitLower c) = d.kind c := by
  unfold unitLower
  split_ifs
  · exact d.kind_lower c
  · rfl

theorem units_map_lowerUnit (c : Char) :
    (Json.units c).map d.lowerUnit = Json.units (d.unitLower c) := by
  have hlt : c.toNat < 0x110000 := Json.toNat_lt c
  unfold unitLower
  split_ifs with h
  · rw [Json.units, if_pos h.1, Json.units, if_pos (d.lower_unit c h.1), List.map_singleton,
      d.lowerUnit_eq c h.1 h.2]
  · by_cases hunit : c.toNat < 0x10000
    · have hc : c = dottedI := by
        by_contra hne
        exact h ⟨hunit, hne⟩
      subst hc
      rw [Json.units, if_pos hunit, List.map_singleton, d.lowerUnit_dottedI]
    · rw [Json.units, if_neg hunit, List.map_cons, List.map_singleton,
        d.lowerUnit_surrogate _ (by omega) (by omega),
        d.lowerUnit_surrogate _ (by omega) (by omega)]

theorem map_lowerUnit (s : List Char) :
    (s.flatMap Json.units).map d.lowerUnit = (s.map d.unitLower).flatMap Json.units := by
  rw [List.map_flatMap, List.flatMap_map]
  exact List.flatMap_congr fun c _ => d.units_map_lowerUnit c

theorem map_lowerUnit_eq_iff (s t : List Char) :
    (s.flatMap Json.units).map d.lowerUnit = (t.flatMap Json.units).map d.lowerUnit ↔
      s.map d.unitLower = t.map d.unitLower := by
  rw [map_lowerUnit, map_lowerUnit]
  exact Json.flatMap_units_injective.eq_iff

/-! ### Texts with one lower case -/

/-- The lower case of the text does not depend on how it is computed: it has no dotted letter,
with or without its dot apart, none that only the whole text sees, and no sigma that ends a
word; and it does not end where a dotted letter could. -/
structure Unambiguous (s : List Char) : Prop where
  no_dottedI : dottedI ∉ s
  no_i_dot : ∀ u x v, s = u ++ x :: combiningDot :: v → x ≠ 'i' ∧ x ≠ 'I'
  last_ne_i : ∀ u x, s = u ++ [x] → x ≠ 'i' ∧ x ≠ 'I'
  no_pair : ∀ x ∈ s, ∀ y, d.lower y = d.lower x → 0x10000 ≤ x.toNat ∨ 0x10000 ≤ y.toNat → y = x
  no_finalSigma : ∀ u c v, s = u ++ c :: v → c ∈ ['Σ', 'σ', 'ς'] → d.isFinal u.reverse v = false

theorem length_le_lowerWithin (before s after : List Char) :
    s.length ≤ (d.lowerWithin before s after).length := by
  induction s generalizing before with
  | nil => exact Nat.le_refl 0
  | cons c rest ih =>
    have hrest := ih (c :: before)
    have hchar : 1 ≤ (d.lowerChar before c (rest ++ after)).length := by
      unfold lowerChar
      split_ifs <;> simp
    rw [lowerWithin, List.length_append, List.length_cons]
    omega

theorem split_at {s : List Char} {k : Nat} {c : Char} (h : s[k]? = some c) :
    s = s.take k ++ c :: s.drop (k + 1) := by
  obtain ⟨hk, hc⟩ := List.getElem?_eq_some_iff.mp h
  rw [← hc, ← List.drop_eq_getElem_cons hk, List.take_append_drop]

/-- Where the lower case of a text without dotted letters has an `i`, the text has one. -/
theorem getElem?_of_lowerText {s : List Char} (hs : dottedI ∉ s) {k : Nat} {e : Char}
    (he : e ≠ 'σ') (he' : e ≠ 'ς') (h : (d.lowerText s)[k]? = some e) :
    ∃ c, s[k]? = some c ∧ d.lower c = e := by
  rw [d.getElem?_lowerText hs, Option.map_eq_some_iff] at h
  obtain ⟨c, hc, hlower⟩ := h
  exact ⟨c, hc, d.lower_of_lowerOne he he' hlower⟩

namespace Unambiguous

variable {d} {s t : List Char} (hs : d.Unambiguous s)
include hs

/-- A dotted letter of `t` would stand where `s` has an `i`, before a dot or at its end. -/
theorem dottedI_notMem (hbegins : d.lowerText s <+: d.lowerText t) (hlen : t.length ≤ s.length) :
    dottedI ∉ t := by
  intro hmem
  obtain ⟨u, v, rfl, hu⟩ := List.eq_append_cons_of_mem hmem
  have hlower : d.lowerText (u ++ dottedI :: v) = d.lowerWithin [] u (dottedI :: v) ++
      'i' :: combiningDot :: d.lowerWithin (dottedI :: u.reverse) v [] := by
    rw [lowerText_split_cons, lowerChar, if_pos rfl]
    rfl
  have hcount := d.length_lowerWithin hu [] (dottedI :: v)
  have hslen : (d.lowerText s).length = s.length := d.length_lowerWithin hs.no_dottedI [] []
  have hpos : u.length < s.length := by
    rw [List.length_append, List.length_cons] at hlen
    omega
  have hsame : ∀ k < s.length, (d.lowerText s)[k]? = (d.lowerText (u ++ dottedI :: v))[k]? := by
    intro k hk
    have hk' : k < (d.lowerText s).length := hslen ▸ hk
    rw [List.prefix_iff_getElem?.mp hbegins k hk', List.getElem?_eq_getElem hk']
  have hi : (d.lowerText s)[u.length]? = some 'i' := by
    rw [hsame _ hpos, hlower, List.getElem?_append_right (by omega), hcount, Nat.sub_self]
    rfl
  obtain ⟨x, hx, hxi⟩ := d.getElem?_of_lowerText hs.no_dottedI (by decide) (by decide) hi
  have hletter : x = 'i' ∨ x = 'I' := by
    rcases (d.lower_eq_i x).mp hxi with h | h | h
    · exact .inl h
    · exact .inr h
    · exact absurd (h ▸ List.mem_of_getElem? hx) hs.no_dottedI
  have hsplit := split_at hx
  by_cases hlast : u.length + 1 < s.length
  · have hdot : (d.lowerText s)[u.length + 1]? = some combiningDot := by
      rw [hsame _ hlast, hlower, List.getElem?_append_right (by omega), hcount,
        Nat.add_sub_cancel_left]
      rfl
    obtain ⟨e, he, hedot⟩ := d.getElem?_of_lowerText hs.no_dottedI (by decide) (by decide) hdot
    rw [(d.lower_eq_dot e).mp hedot] at he
    have hrest : s.drop (u.length + 1) = combiningDot :: s.drop (u.length + 2) := by
      obtain ⟨hk, hc⟩ := List.getElem?_eq_some_iff.mp he
      rw [← hc, ← List.drop_eq_getElem_cons hk]
    rw [hrest] at hsplit
    have hne := hs.no_i_dot _ _ _ hsplit
    exact hletter.elim hne.1 hne.2
  · have hrest : s.drop (u.length + 1) = [] := List.drop_eq_nil_of_le (by omega)
    rw [hrest] at hsplit
    have hne := hs.last_ne_i _ _ hsplit
    exact hletter.elim hne.1 hne.2

/-- A letter of `s` and one that stands in its place in another text. -/
theorem lowerOne_eq_iff {u v before after : List Char} {x y : Char} (hsplit : s = u ++ x :: v)
    (hy : y ≠ dottedI) (hfinal : d.isFinal u.reverse v = d.isFinal before after) :
    d.lowerOne u.reverse x v = d.lowerOne before y after ↔ d.unitLower x = d.unitLower y := by
  have hmem : x ∈ s := by
    rw [hsplit]
    exact List.mem_append_right u List.mem_cons_self
  have hx : x ≠ dottedI := fun h => hs.no_dottedI (h ▸ hmem)
  have hsigma : d.unitLower 'Σ' = 'σ' := by
    rw [d.unitLower_eq_sigma (by decide), lower_sigma]
  by_cases hxs : x = 'Σ'
  · have hnot := hs.no_finalSigma u x v hsplit (by simp [hxs])
    have hone : d.lowerOne u.reverse x v = 'σ' := by
      rw [lowerOne, if_pos hxs, lowerSigma, hnot]
      rfl
    rw [hone, hxs, hsigma]
    by_cases hys : y = 'Σ'
    · rw [lowerOne, if_pos hys, lowerSigma, ← hfinal, hnot, hys, hsigma]
      rfl
    · rw [lowerOne, if_neg hys, eq_comm, ← d.unitLower_eq_sigma hy, eq_comm]
  · rw [lowerOne, if_neg hxs]
    by_cases hys : y = 'Σ'
    · rw [lowerOne, if_pos hys, hys, hsigma, d.unitLower_eq_sigma hx, lowerSigma, ← hfinal]
      by_cases hend : d.isFinal u.reverse v = true
      · rw [if_pos hend, lower_eq_finalSigma, lower_eq_sigma]
        have hnone : x ∉ ['Σ', 'σ', 'ς'] := fun h =>
          Bool.false_ne_true ((hs.no_finalSigma u x v hsplit h).symm.trans hend)
        simp only [List.mem_cons, List.not_mem_nil, or_false, not_or] at hnone
        exact iff_of_false hnone.2.2 (by simp [hnone.1, hnone.2.1])
      · rw [if_neg hend]
    · rw [lowerOne, if_neg hys]
      rcases Nat.lt_or_ge x.toNat 0x10000 with hxn | hxn
      · rcases Nat.lt_or_ge y.toNat 0x10000 with hyn | hyn
        · rw [d.unitLower_of_lt hxn hx, d.unitLower_of_lt hyn hy]
        · apply iff_of_false
          · intro h
            rw [hs.no_pair x hmem y h.symm (.inr hyn)] at hyn
            omega
          · intro h
            have hlt := (d.unitLower_toNat_lt hx).mpr hxn
            rw [h, d.unitLower_toNat_lt hy] at hlt
            omega
      · constructor
        · intro h
          rw [hs.no_pair x hmem y h.symm (.inl hxn)]
        · intro h
          have hyn : 0x10000 ≤ y.toNat := by
            rw [← Nat.not_lt, ← d.unitLower_toNat_lt hy, ← h, d.unitLower_toNat_lt hx, Nat.not_lt]
            exact hxn
          rw [d.unitLower_of_le hxn, d.unitLower_of_le hyn] at h
          rw [h]

/-- The texts with the same lower case are those whose characters have the same one by one. -/
theorem map_unitLower_eq_iff (t : List Char) :
    s.map d.unitLower = t.map d.unitLower ↔ d.lowerText s = d.lowerText t := by
  -- once no dotted letter is left, position by position
  have hpointwise : ∀ t : List Char, dottedI ∉ t → s.map d.kind = t.map d.kind →
      (s.map d.unitLower = t.map d.unitLower ↔ d.lowerText s = d.lowerText t) := by
    intro t ht hkinds
    rw [List.ext_getElem?_iff, List.ext_getElem?_iff]
    refine forall_congr' fun k => ?_
    rw [d.getElem?_lowerText hs.no_dottedI, d.getElem?_lowerText ht, List.getElem?_map,
      List.getElem?_map]
    have hkind := congrArg (fun l => l[k]?) hkinds
    simp only [List.getElem?_map] at hkind
    match hx : s[k]?, hy : t[k]? with
    | none, none => simp
    | none, some y => simp [hx, hy] at hkind
    | some x, none => simp [hx, hy] at hkind
    | some x, some y =>
      have hfinal : d.isFinal (s.take k).reverse (s.drop (k + 1)) =
          d.isFinal (t.take k).reverse (t.drop (k + 1)) := by
        apply d.isFinal_eq_of_kinds
        · rw [List.map_reverse, List.map_reverse, List.map_take, List.map_take, hkinds]
        · rw [List.map_drop, List.map_drop, hkinds]
      have hyne : y ≠ dottedI := fun h => ht (h ▸ List.mem_of_getElem? hy)
      simpa using (hs.lowerOne_eq_iff (split_at hx) hyne hfinal).symm
  constructor
  · intro h
    have ht : dottedI ∉ t := by
      intro hmem
      have hunit : dottedI ∈ s.map d.unitLower := by
        rw [h, List.mem_map]
        exact ⟨dottedI, hmem, d.unitLower_eq_dottedI.mpr rfl⟩
      obtain ⟨c, hc, hceq⟩ := List.mem_map.mp hunit
      exact hs.no_dottedI (d.unitLower_eq_dottedI.mp hceq ▸ hc)
    have hkinds := congrArg (List.map d.kind) h
    simp only [List.map_map, Function.comp_def, kind_unitLower] at hkinds
    exact (hpointwise t ht hkinds).mp h
  · intro h
    have hlen : t.length ≤ s.length := by
      have hcount : (d.lowerText t).length = s.length := by
        rw [← h]
        exact d.length_lowerWithin hs.no_dottedI [] []
      exact Nat.le_trans (d.length_le_lowerWithin [] t []) (Nat.le_of_eq hcount)
    have ht := hs.dottedI_notMem (h ▸ List.prefix_refl _) hlen
    have hkinds := congrArg (List.map d.kind) h
    rw [lowerText, lowerText, d.lowerWithin_eq_map_kind hs.no_dottedI,
      d.lowerWithin_eq_map_kind ht] at hkinds
    exact (hpointwise t ht hkinds).mpr h

end Unambiguous

variable {d}

theorem map_unitLower_replace_iff (u v : List Char) (x y : Char) :
    (u ++ x :: v).map d.unitLower = (u ++ y :: v).map d.unitLower ↔
      d.unitLower x = d.unitLower y := by
  simp only [List.map_append, List.map_cons, List.append_cancel_left_eq, List.cons.injEq,
    and_true]

/-- Where one of the ways to compute the lower case goes wrong for a text, it is ambiguous. -/
theorem unambiguous_of_forall {s : List Char}
    (hlength : ∀ t, d.lowerText s = d.lowerText t → s.length = t.length)
    (hbegins : ∀ t, s.length = t.length → d.lowerText s <+: d.lowerText t →
      d.lowerText s = d.lowerText t)
    (hunits : ∀ t, s.map d.unitLower = t.map d.unitLower ↔ d.lowerText s = d.lowerText t) :
    d.Unambiguous s := by
  have hi : d.lower 'i' = 'i' := (d.lower_eq_i 'i').mpr (.inl rfl)
  have hdotted : dottedI ∉ s := by
    intro hmem
    obtain ⟨u, v, rfl⟩ := List.append_of_mem hmem
    have hlen := hlength _ (d.lowerText_dottedI hi (by decide) u v).symm
    simp at hlen
  have hletter : ∀ x, x = 'i' ∨ x = 'I' → d.lower x = 'i' ∧ x ≠ dottedI := by
    rintro x (rfl | rfl)
    · exact ⟨hi, by decide⟩
    · exact ⟨(d.lower_eq_i 'I').mpr (.inr (.inl rfl)), by decide⟩
  refine ⟨hdotted, ?_, ?_, ?_, ?_⟩
  · rintro u x v rfl
    rw [← not_or]
    intro hx
    have hlen := hlength _ (d.lowerText_dottedI (hletter x hx).1 (hletter x hx).2 u v)
    simp at hlen
  · rintro u x rfl
    rw [← not_or]
    intro hx
    have hlast := d.lowerText_last_dottedI (hletter x hx).1 (hletter x hx).2 u
    have heq := hbegins (u ++ [dottedI]) (by simp) (hlast ▸ List.prefix_append _ _)
    rw [hlast] at heq
    simpa using congrArg List.length heq
  · intro x hx y hxy hlarge
    obtain ⟨u, v, rfl⟩ := List.append_of_mem hx
    have hxne : x ≠ dottedI := fun h => hdotted (h ▸ hx)
    have hyne : y ≠ dottedI := by
      rintro rfl
      rw [(d.lower_eq_i dottedI).mpr (.inr (.inr rfl)), eq_comm, lower_eq_i] at hxy
      rcases hxy with rfl | rfl | rfl
      · exact absurd hlarge (by decide)
      · exact absurd hlarge (by decide)
      · exact hxne rfl
    have hsigma : ∀ a b : Char, d.lower a = d.lower b → 0x10000 ≤ a.toNat ∨ 0x10000 ≤ b.toNat →
        a ≠ 'Σ' := by
      rintro a b hab hlarge rfl
      rw [lower_sigma, eq_comm, lower_eq_sigma] at hab
      rcases hab with rfl | rfl
      · exact absurd hlarge (by decide)
      · exact absurd hlarge (by decide)
    have hlower : d.lowerText (u ++ x :: v) = d.lowerText (u ++ y :: v) := by
      rw [d.lowerText_replace_iff (d.kind_of_lower_eq hxy.symm), lowerChar, lowerChar,
        if_neg hxne, if_neg hyne, lowerOne, lowerOne, if_neg (hsigma x y hxy.symm hlarge),
        if_neg (hsigma y x hxy hlarge.symm), hxy]
    have hunit := (map_unitLower_replace_iff u v x y).mp ((hunits _).mpr hlower)
    have hboth : 0x10000 ≤ x.toNat ∧ 0x10000 ≤ y.toNat := by
      have hiff := d.unitLower_toNat_lt hxne
      rw [hunit, d.unitLower_toNat_lt hyne] at hiff
      omega
    rw [d.unitLower_of_le hboth.1, d.unitLower_of_le hboth.2] at hunit
    exact hunit.symm
  · rintro u c v rfl hc
    by_contra hend
    rw [Bool.not_eq_false] at hend
    have hkind : ∀ e ∈ ['Σ', 'σ', 'ς'], d.kind c = d.kind e := fun e he => by
      rw [d.kind_sigma hc, d.kind_sigma he]
    have hcapital : d.lowerChar u.reverse 'Σ' v = ['ς'] := by
      rw [lowerChar, if_neg (by decide), lowerOne, if_pos rfl, lowerSigma, if_pos hend]
    have hsmall : d.lowerChar u.reverse 'σ' v = ['σ'] := by
      rw [lowerChar, if_neg (by decide), lowerOne, if_neg (by decide),
        (d.lower_eq_sigma 'σ').mpr (.inl rfl)]
    have hfinal : d.lowerChar u.reverse 'ς' v = ['ς'] := by
      rw [lowerChar, if_neg (by decide), lowerOne, if_neg (by decide),
        (d.lower_eq_finalSigma 'ς').mpr rfl]
    have hunitCapital : d.unitLower 'Σ' = 'σ' := by
      rw [d.unitLower_eq_sigma (by decide), lower_sigma]
    have hunitSmall : d.unitLower 'σ' = 'σ' := by
      rw [d.unitLower_eq_sigma (by decide), (d.lower_eq_sigma 'σ').mpr (.inl rfl)]
    have hunitFinal : d.unitLower 'ς' = 'ς' := by
      rw [d.unitLower_of_lt (by decide) (by decide), (d.lower_eq_finalSigma 'ς').mpr rfl]
    simp only [List.mem_cons, List.not_mem_nil, or_false] at hc
    rcases hc with rfl | rfl | rfl
    · have hiff := hunits (u ++ 'σ' :: v)
      rw [map_unitLower_replace_iff, d.lowerText_replace_iff (hkind 'σ' (by simp)), hcapital,
        hsmall, hunitCapital, hunitSmall] at hiff
      exact absurd (hiff.mp rfl) (by decide)
    · have hiff := hunits (u ++ 'Σ' :: v)
      rw [map_unitLower_replace_iff, d.lowerText_replace_iff (hkind 'Σ' (by simp)), hcapital,
        hsmall, hunitCapital, hunitSmall] at hiff
      exact absurd (hiff.mp rfl) (by decide)
    · have hiff := hunits (u ++ 'Σ' :: v)
      rw [map_unitLower_replace_iff, d.lowerText_replace_iff (hkind 'Σ' (by simp)), hcapital,
        hfinal, hunitCapital, hunitFinal] at hiff
      exact absurd (hiff.mpr rfl) (by decide)

/-! ### The letters of English, and the two special ones -/

def basicCode (n : Nat) : Nat :=
  if 65 ≤ n ∧ n ≤ 90 then n + 32
  else if n = 0x3A3 then 0x3C3
  else if n = 0x130 then 105
  else n

theorem basicCode_valid {n : Nat} (h : n.isValidChar) : (basicCode n).isValidChar := by
  unfold basicCode
  split_ifs
  · exact .inl (by omega)
  · exact .inl (by decide)
  · exact .inl (by decide)
  · exact h

def basicLower (c : Char) : Char := Char.ofNatAux (basicCode c.toNat) (basicCode_valid c.valid)

def basicCased (n : Nat) : Bool :=
  (65 ≤ n && n ≤ 90) || (97 ≤ n && n ≤ 122) || n == 0x130 || n == 0x3A3 || n == 0x3C2 ||
    n == 0x3C3

def basic : CaseData where
  lower := basicLower
  cased c := basicCased c.toNat
  ignorable c := c.toNat == 0x307
  lowerUnit n := if n = 0x130 then n else basicCode n
  cased_lower c := by
    show basicCased (basicCode c.toNat) = basicCased c.toNat
    unfold basicCode basicCased
    split_ifs <;> grind
  ignorable_lower c := by
    show (basicCode c.toNat == 0x307) = (c.toNat == 0x307)
    unfold basicCode
    split_ifs <;> grind
  cased_letter := by
    intro c hc
    simp only [List.mem_cons, List.not_mem_nil, or_false] at hc
    rcases hc with rfl | rfl | rfl
    · exact ⟨rfl, rfl⟩
    · exact ⟨rfl, rfl⟩
    · exact ⟨rfl, rfl⟩
  ignorable_dot := by decide
  lower_eq_i c := by
    simp only [← Char.toNat_inj]
    show basicCode c.toNat = 105 ↔ c.toNat = 105 ∨ c.toNat = 73 ∨ c.toNat = 0x130
    unfold basicCode
    split_ifs <;> omega
  lower_eq_dot c := by
    simp only [← Char.toNat_inj]
    show basicCode c.toNat = 0x307 ↔ c.toNat = 0x307
    unfold basicCode
    split_ifs <;> omega
  lower_eq_sigma c := by
    simp only [← Char.toNat_inj]
    show basicCode c.toNat = 0x3C3 ↔ c.toNat = 0x3C3 ∨ c.toNat = 0x3A3
    unfold basicCode
    split_ifs <;> omega
  lower_eq_finalSigma c := by
    simp only [← Char.toNat_inj]
    show basicCode c.toNat = 0x3C2 ↔ c.toNat = 0x3C2
    unfold basicCode
    split_ifs <;> omega
  lower_ne_dottedI c := by
    rw [ne_eq, ← Char.toNat_inj]
    show basicCode c.toNat ≠ 0x130
    unfold basicCode
    split_ifs <;> omega
  lower_unit c h := by
    show basicCode c.toNat < 0x10000
    unfold basicCode
    split_ifs <;> omega
  lowerUnit_eq c h hne := by
    have hcode : c.toNat ≠ 0x130 := fun h => hne (Char.toNat_inj.mp h)
    rw [if_neg hcode]
    rfl
  lowerUnit_dottedI := by decide
  lowerUnit_surrogate n h h' := by
    unfold basicCode
    split_ifs <;> omega

end CaseData
