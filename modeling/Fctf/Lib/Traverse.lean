import Mathlib.Data.List.Forall2

/-!
A function that may fail, mapped over a list: what is found in the result, and when there is one.
-/

namespace Traverse

variable {α β : Type*} {f : α → Option β} {as : List α} {bs : List β}

theorem mapM_eq_some_iff : as.mapM f = some bs ↔ List.Forall₂ (fun a b => f a = some b) as bs := by
  induction as generalizing bs with
  | nil =>
    rw [List.mapM_nil, List.forall₂_nil_left_iff]
    exact ⟨fun h => (Option.some.inj h).symm, fun h => congrArg some h.symm⟩
  | cons a as ih =>
    rw [List.mapM_cons, List.forall₂_cons_left_iff]
    constructor
    · intro h
      obtain ⟨b, hb, hrest⟩ := Option.bind_eq_some_iff.mp h
      obtain ⟨bs', hbs, hcons⟩ := Option.bind_eq_some_iff.mp hrest
      exact ⟨b, bs', hb, ih.mp hbs, (Option.some.inj hcons).symm⟩
    · rintro ⟨b, bs', hb, hbs, rfl⟩
      exact Option.bind_eq_some_iff.mpr ⟨b, hb, Option.bind_eq_some_iff.mpr ⟨bs', ih.mpr hbs, rfl⟩⟩

theorem length_of_mapM (h : as.mapM f = some bs) : bs.length = as.length :=
  (mapM_eq_some_iff.mp h).length_eq.symm

theorem exists_of_mem_right (h : as.mapM f = some bs) {b : β} (hb : b ∈ bs) :
    ∃ a ∈ as, f a = some b := by
  have hall := mapM_eq_some_iff.mp h
  clear h
  induction hall with
  | nil => cases hb
  | cons hab _ ih =>
    rcases List.mem_cons.mp hb with rfl | hrest
    · exact ⟨_, List.mem_cons_self, hab⟩
    · obtain ⟨a, ha, hfa⟩ := ih hrest
      exact ⟨a, List.mem_cons_of_mem _ ha, hfa⟩

theorem exists_of_mem_left (h : as.mapM f = some bs) {a : α} (ha : a ∈ as) :
    ∃ b ∈ bs, f a = some b := by
  have hall := mapM_eq_some_iff.mp h
  clear h
  induction hall with
  | nil => cases ha
  | cons hab _ ih =>
    rcases List.mem_cons.mp ha with rfl | hrest
    · exact ⟨_, List.mem_cons_self, hab⟩
    · obtain ⟨b, hb, hfa⟩ := ih hrest
      exact ⟨b, List.mem_cons_of_mem _ hb, hfa⟩

theorem mapM_isSome (f : α → Option β) (as : List α) :
    (as.mapM f).isSome = true ↔ ∀ a ∈ as, (f a).isSome = true := by
  induction as with
  | nil => simp
  | cons a as ih =>
    rw [List.mapM_cons, List.forall_mem_cons, ← ih]
    cases f a with
    | none => simp
    | some b => cases as.mapM f <;> simp

/-- Where the function gives what a total one does, if anything. -/
theorem mapM_eq_some_iff_of {g : α → β} (hg : ∀ a ∈ as, ∀ b, f a = some b → b = g a) :
    as.mapM f = some bs ↔ (∀ a ∈ as, (f a).isSome = true) ∧ bs = as.map g := by
  rw [mapM_eq_some_iff]
  constructor
  · intro h
    induction h with
    | nil => exact ⟨fun a ha => absurd ha List.not_mem_nil, rfl⟩
    | cons hab _ ih =>
      obtain ⟨hsome, rfl⟩ := ih fun a ha => hg a (List.mem_cons_of_mem _ ha)
      obtain rfl := hg _ List.mem_cons_self _ hab
      exact ⟨List.forall_mem_cons.mpr ⟨by rw [hab]; rfl, hsome⟩, rfl⟩
  · rintro ⟨hsome, rfl⟩
    rw [List.forall₂_map_right_iff, List.forall₂_same]
    intro a ha
    obtain ⟨b, hb⟩ := Option.isSome_iff_exists.mp (hsome a ha)
    rw [hb, hg a ha b hb]

end Traverse
