import Mathlib.Data.List.Sort
import Mathlib.Data.List.Nodup

/-!
Rankings. A list of distinct rows is determined by which row stands before which, a stable
sort by its key and the order of the rows that it is given, and the places in two lists agree
for all of the shorter one exactly when it is a prefix of the other.
-/

namespace Ranking

variable {α κ : Type*}

/-- `a` stands before `b` in the list. -/
def Before (l : List α) (a b : α) : Prop := [a, b].Sublist l

instance decidableBefore [DecidableEq α] (l : List α) (a b : α) : Decidable (Before l a b) :=
  inferInstanceAs (Decidable ([a, b].Sublist l))

section Before

variable {l l' : List α} {a b : α}

theorem Before.mem_right (h : Before l a b) : b ∈ l := h.subset (by simp)

theorem before_cons {c : α} : Before (c :: l) a b ↔ Before l a b ∨ c = a ∧ b ∈ l := by
  unfold Before
  constructor
  · intro h
    cases h with
    | cons _ h => exact .inl h
    | cons_cons _ h => exact .inr ⟨rfl, List.singleton_sublist.mp h⟩
  · rintro (h | ⟨rfl, h⟩)
    · exact h.cons _
    · exact (List.singleton_sublist.mpr h).cons_cons _

theorem pairwise_before (l : List α) : l.Pairwise (Before l) := by
  induction l with
  | nil => exact .nil
  | cons a l ih =>
    apply List.Pairwise.cons
    · intro b hb
      exact before_cons.mpr (.inr ⟨rfl, hb⟩)
    · exact ih.imp fun h => before_cons.mpr (.inl h)

theorem Before.asymm (hl : l.Nodup) (h : Before l a b) : ¬ Before l b a := by
  induction l with
  | nil => cases h
  | cons c l ih =>
    obtain ⟨hc, hl⟩ := List.nodup_cons.mp hl
    intro h'
    rcases before_cons.mp h with h | ⟨rfl, hb⟩
    · rcases before_cons.mp h' with h' | ⟨rfl, -⟩
      · exact ih hl h h'
      · exact hc h.mem_right
    · rcases before_cons.mp h' with h' | ⟨rfl, -⟩
      · exact hc h'.mem_right
      · exact hc hb

theorem Before.ne (hl : l.Nodup) (h : Before l a b) : a ≠ b := by
  rintro rfl
  exact h.asymm hl h

theorem before_or_before (ha : a ∈ l) (hb : b ∈ l) (hne : a ≠ b) :
    Before l a b ∨ Before l b a := by
  induction l with
  | nil => cases ha
  | cons c l ih =>
    rcases List.mem_cons.mp ha with rfl | ha
    · have hbl : b ∈ l := (List.mem_cons.mp hb).resolve_left hne.symm
      exact .inl (before_cons.mpr (.inr ⟨rfl, hbl⟩))
    · rcases List.mem_cons.mp hb with heq | hb
      · exact .inr (before_cons.mpr (.inr ⟨heq.symm, ha⟩))
      · exact (ih ha hb).imp (fun h => before_cons.mpr (.inl h)) fun h => before_cons.mpr (.inl h)

theorem Before.of_sublist (h : Before l a b) (hsub : l.Sublist l') : Before l' a b :=
  List.Sublist.trans h hsub

/-- A selection of rows keeps their order. -/
theorem before_filter (p : α → Bool) (ha : p a = true) (hb : p b = true) :
    Before (l.filter p) a b ↔ Before l a b := by
  constructor
  · intro h
    exact h.of_sublist List.filter_sublist
  · intro h
    have hpair : [a, b].filter p = [a, b] := by simp [ha, hb]
    have hsub := List.Sublist.filter p h
    rwa [hpair] at hsub

/-- Two rankings of the same rows that put the same rows before each other are equal. -/
theorem eq_of_perm_of_before (hl : l.Nodup) (hperm : l.Perm l')
    (h : ∀ a ∈ l, ∀ b ∈ l, Before l a b → Before l' a b) : l = l' := by
  refine List.Perm.eq_of_pairwise (fun a b _ _ (hab : Before l' a b) hba => ?_) ?_ ?_ ?_
  · exact absurd hba (hab.asymm (hperm.nodup_iff.mp hl))
  · exact (pairwise_before l).imp_of_mem fun ha hb hab => h _ ha _ hb hab
  · exact pairwise_before l'
  · exact hperm

theorem eq_iff_before (hl : l.Nodup) (hperm : l.Perm l') :
    l = l' ↔ ∀ a ∈ l, ∀ b ∈ l, a ≠ b → (Before l a b ↔ Before l' a b) := by
  constructor
  · rintro rfl a - b - -
    exact Iff.rfl
  · intro h
    apply eq_of_perm_of_before hl hperm
    intro a ha b hb hab
    exact (h a ha b hb (hab.ne hl)).mp hab

end Before

section OrderBy

variable [LinearOrder κ] (key : α → κ)

/-- The stable sort: rows with equal keys stay in their order. -/
def orderBy (l : List α) : List α := l.insertionSort fun a b => key a ≤ key b

theorem orderBy_perm (l : List α) : (orderBy key l).Perm l := List.perm_insertionSort ..

@[simp] theorem mem_orderBy {l : List α} {a : α} : a ∈ orderBy key l ↔ a ∈ l :=
  (orderBy_perm key l).mem_iff

theorem before_orderBy_of_le {l : List α} {a b : α} (hkey : key a ≤ key b) (h : Before l a b) :
    Before (orderBy key l) a b :=
  List.pair_sublist_insertionSort hkey h

theorem before_orderBy_of_lt {l : List α} {a b : α} (ha : a ∈ l) (hb : b ∈ l)
    (hkey : key a < key b) : Before (orderBy key l) a b := by
  have hne : a ≠ b := by
    rintro rfl
    exact lt_irrefl _ hkey
  rcases before_or_before ((mem_orderBy key).mpr ha) ((mem_orderBy key).mpr hb) hne with h | h
  · exact h
  · have hsorted : (orderBy key l).Pairwise fun a b => key a ≤ key b :=
      List.pairwise_insertionSort ..
    have hle := List.pairwise_iff_forall_sublist.mp hsorted h
    exact absurd hkey (not_lt.mpr hle)

/-- What a stable sort puts first. -/
theorem before_orderBy {l : List α} {a b : α} (hl : l.Nodup) (ha : a ∈ l) (hb : b ∈ l)
    (hne : a ≠ b) :
    Before (orderBy key l) a b ↔ key a < key b ∨ key a = key b ∧ Before l a b := by
  have hsorted : (orderBy key l).Nodup := (orderBy_perm key l).nodup_iff.mpr hl
  constructor
  · intro h
    rcases lt_trichotomy (key a) (key b) with hkey | hkey | hkey
    · exact .inl hkey
    · refine .inr ⟨hkey, ?_⟩
      apply (before_or_before ha hb hne).resolve_right
      intro h'
      exact h.asymm hsorted (before_orderBy_of_le key hkey.ge h')
    · exact absurd (before_orderBy_of_lt key hb ha hkey) (h.asymm hsorted)
  · rintro (hkey | ⟨hkey, h⟩)
    · exact before_orderBy_of_lt key ha hb hkey
    · exact before_orderBy_of_le key hkey.le h

theorem orderBy_map {β : Type*} (key : β → κ) (f : α → β) (l : List α) :
    orderBy key (l.map f) = (orderBy (fun a => key (f a)) l).map f :=
  (List.map_insertionSort _ _ f l fun _ _ _ _ => Iff.rfl).symm

/-- Only the order of the keys matters. -/
theorem orderBy_congr {κ' : Type*} [LinearOrder κ'] {key' : α → κ'}
    (h : ∀ a b, key a ≤ key b ↔ key' a ≤ key' b) : orderBy key = orderBy key' := by
  funext l
  unfold orderBy
  congr
  · funext a b
    exact propext (h a b)

end OrderBy

/-- A row is found where its number is. -/
theorem idxOf_map [DecidableEq α] [DecidableEq κ] {f : α → κ} {l : List α} {a : α}
    (hinj : ∀ b ∈ l, f b = f a → b = a) : (l.map f).idxOf (f a) = l.idxOf a := by
  induction l with
  | nil => rfl
  | cons b l ih =>
    have hhead : f b = f a ↔ b = a := ⟨hinj b (List.mem_cons_self ..), congrArg f⟩
    have htail := ih fun c hc => hinj c (List.mem_cons_of_mem _ hc)
    by_cases h : b = a
    · simp [h]
    · rw [List.map_cons, List.idxOf_cons_ne _ (mt hhead.mp h), List.idxOf_cons_ne _ h, htail]

/-- The first row with a key and the number it has, when the rows are numbered from `n`. -/
theorem find?_zipIdx [DecidableEq κ] (key : α → κ) (l : List α) (k : κ) (n : Nat) :
    ((l.zipIdx n).find? fun row => key row.1 = k).map (·.2) =
      if k ∈ l.map key then some ((l.map key).idxOf k + n) else none := by
  induction l generalizing n with
  | nil => rfl
  | cons a l ih =>
    rw [List.zipIdx_cons, List.find?_cons, List.map_cons]
    by_cases h : key a = k
    · simp [h]
    · rw [List.idxOf_cons_ne _ h]
      simp only [h, decide_false]
      rw [ih]
      have hmem : k ∈ key a :: l.map key ↔ k ∈ l.map key := by simp [Ne.symm h]
      simp only [hmem]
      split
      · congr 1
        omega
      · rfl

section Place

variable [DecidableEq α] {s l : List α}

/-- All rows of `s` have the same place in `l` as in `s` exactly when `s` is its beginning. -/
theorem idxOf_eq_iff_placed (hs : s.Nodup) (hsub : ∀ a ∈ s, a ∈ l) :
    (∀ a ∈ s, l.idxOf a = s.idxOf a) ↔ s <+: l := by
  constructor
  · intro h
    rw [List.prefix_iff_getElem?]
    intro i hi
    have hidx : l.idxOf s[i] = i := by
      rw [h _ (List.getElem_mem hi), hs.idxOf_getElem i hi]
    have hlt : i < l.length := by
      rw [← hidx]
      exact List.idxOf_lt_length_of_mem (hsub _ (List.getElem_mem hi))
    have hget : l[l.idxOf s[i]]? = some s[i] :=
      List.getElem?_idxOf (hsub _ (List.getElem_mem hi))
    rwa [hidx] at hget
  · rintro ⟨rest, rfl⟩ a ha
    exact List.idxOf_append_of_mem ha

/-- A ranking begins with `s` exactly when it puts the rows of `s` in that order and before
all others. -/
theorem prefix_iff_before (hs : s.Nodup) (hl : l.Nodup) (hsub : ∀ a ∈ s, a ∈ l) :
    s <+: l ↔ (∀ a ∈ s, ∀ b ∈ l, b ∉ s → Before l a b) ∧
      ∀ a ∈ s, ∀ b ∈ s, a ≠ b → (Before l a b ↔ Before s a b) := by
  constructor
  · rintro ⟨rest, rfl⟩
    constructor
    · intro a ha b hb hbs
      have hrest : b ∈ rest := (List.mem_append.mp hb).resolve_left hbs
      exact List.Sublist.append (List.singleton_sublist.mpr ha) (List.singleton_sublist.mpr hrest)
    · intro a ha b hb hne
      have hback : ∀ {x y}, Before s x y → Before (s ++ rest) x y :=
        fun h => h.of_sublist (List.sublist_append_left s rest)
      constructor
      · intro h
        apply (before_or_before ha hb hne).resolve_right
        intro h'
        exact h.asymm hl (hback h')
      · exact hback
  · rintro ⟨hothers, hsame⟩
    -- the list that is meant is sorted by the order of `l`
    have hperm : (s ++ l.filter (· ∉ s)).Perm l := by
      have hmem : l.filter (· ∈ s) |>.Perm s := by
        rw [List.perm_ext_iff_of_nodup (hl.filter _) hs]
        intro a
        simpa using hsub a
      calc s ++ l.filter (· ∉ s)
          |>.Perm (l.filter (· ∈ s) ++ l.filter (· ∉ s)) := hmem.symm.append_right _
        _ |>.Perm l := by simpa using List.filter_append_perm (· ∈ s) l
    have heq : s ++ l.filter (· ∉ s) = l := by
      refine List.Perm.eq_of_pairwise (fun a b _ _ (hab : Before l a b) hba => ?_) ?_ ?_ ?_
      · exact absurd hba (hab.asymm hl)
      · apply List.pairwise_append.mpr
        refine ⟨?_, ?_, ?_⟩
        · apply (pairwise_before s).imp_of_mem
          intro a b ha hb hab
          exact (hsame a ha b hb (hab.ne hs)).mpr hab
        · exact (pairwise_before l).sublist List.filter_sublist
        · intro a ha b hb
          obtain ⟨hbl, hbs⟩ := List.mem_filter.mp hb
          exact hothers a ha b hbl (by simpa using hbs)
      · exact pairwise_before l
      · exact hperm
    exact ⟨_, heq⟩

end Place

end Ranking
