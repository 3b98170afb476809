import Mathlib.Data.Option.Basic
import Mathlib.Logic.Function.Basic

/-!
Key-value stores whose cells may carry a deadline. A cell is live while the
clock is strictly before its deadline; a cell without a deadline is always
live. Nothing is deleted when time passes: every operation looks through the
clock instead, so the passing of time needs no step of its own.
-/

namespace Expiring

variable {κ α : Type*}

structure Cell (α : Type*) where
  value : α
  deadline : Option Int
  deriving Repr, DecidableEq

/-- The cell is still stored at time `now`. -/
def Cell.Live (c : Cell α) (now : Int) : Prop := ∀ d ∈ c.deadline, now < d

instance (c : Cell α) (now : Int) : Decidable (c.Live now) :=
  inferInstanceAs (Decidable (∀ d ∈ c.deadline, now < d))

@[simp] theorem Cell.live_none (v : α) (now : Int) : (Cell.mk v none).Live now := by
  simp [Cell.Live]

@[simp] theorem Cell.live_some (v : α) (d now : Int) :
    (Cell.mk v (some d)).Live now ↔ now < d := by
  simp [Cell.Live]

theorem Cell.Live.earlier {c : Cell α} {now later : Int} (h : c.Live later)
    (hle : now ≤ later) : c.Live now :=
  fun d hd => Int.lt_of_le_of_lt hle (h d hd)

/-- A store: at most one cell for each key. -/
structure Store (κ α : Type*) where
  cell : κ → Option (Cell α)

namespace Store

def empty : Store κ α := ⟨fun _ => none⟩

/-- The live cell of a key. -/
def find (s : Store κ α) (now : Int) (k : κ) : Option (Cell α) :=
  (s.cell k).filter fun c => c.Live now

def get (s : Store κ α) (now : Int) (k : κ) : Option α := (s.find now k).map Cell.value

def contains (s : Store κ α) (now : Int) (k : κ) : Bool := (s.find now k).isSome

theorem find_eq_some {s : Store κ α} {now : Int} {k : κ} {c : Cell α} :
    s.find now k = some c ↔ s.cell k = some c ∧ c.Live now := by
  simp [find, Option.filter_eq_some_iff]

theorem get_eq_some {s : Store κ α} {now : Int} {k : κ} {v : α} :
    s.get now k = some v ↔ ∃ c, s.find now k = some c ∧ c.value = v := by
  simp [get]

@[simp] theorem find_empty (now : Int) (k : κ) : (empty : Store κ α).find now k = none := rfl

@[simp] theorem get_empty (now : Int) (k : κ) : (empty : Store κ α).get now k = none := rfl

theorem get_eq_none {s : Store κ α} {now : Int} {k : κ} :
    s.get now k = none ↔ s.find now k = none := by
  simp [get]

theorem contains_iff {s : Store κ α} {now : Int} {k : κ} :
    s.contains now k = true ↔ ∃ c, s.find now k = some c := by
  simp [contains, Option.isSome_iff_exists]

/-- Time only takes cells away. -/
theorem find_earlier {s : Store κ α} {now later : Int} {k : κ} {c : Cell α}
    (h : s.find later k = some c) (hle : now ≤ later) : s.find now k = some c := by
  obtain ⟨hcell, hlive⟩ := find_eq_some.mp h
  exact find_eq_some.mpr ⟨hcell, hlive.earlier hle⟩

theorem get_earlier {s : Store κ α} {now later : Int} {k : κ} {v : α}
    (h : s.get later k = some v) (hle : now ≤ later) : s.get now k = some v := by
  obtain ⟨c, hfind, rfl⟩ := get_eq_some.mp h
  exact get_eq_some.mpr ⟨c, find_earlier hfind hle, rfl⟩

/-- Deletes the keys with a property. -/
def delWhere (s : Store κ α) (p : κ → Bool) : Store κ α := ⟨fun k => if p k then none else s.cell k⟩

theorem find_delWhere (s : Store κ α) (p : κ → Bool) (now : Int) (k : κ) :
    (s.delWhere p).find now k = if p k then none else s.find now k := by
  cases hp : p k <;> simp [find, delWhere, hp]

section Update

variable [DecidableEq κ]

/-- Stores a value without a deadline. -/
def set (s : Store κ α) (k : κ) (v : α) : Store κ α :=
  ⟨Function.update s.cell k (some ⟨v, none⟩)⟩

/-- Stores a value that lives for `ttl` from `now` on. -/
def setEx (s : Store κ α) (now : Int) (k : κ) (ttl : Int) (v : α) : Store κ α :=
  ⟨Function.update s.cell k (some ⟨v, some (now + ttl)⟩)⟩

/-- Gives the live cell of a key a new deadline; an absent key stays absent. -/
def expire (s : Store κ α) (now : Int) (k : κ) (ttl : Int) : Store κ α :=
  ⟨Function.update s.cell k ((s.find now k).map fun c => ⟨c.value, some (now + ttl)⟩)⟩

/-- Changes the value of the live cell of a key and keeps its deadline. -/
def modify (s : Store κ α) (now : Int) (k : κ) (f : α → α) : Store κ α :=
  ⟨Function.update s.cell k ((s.find now k).map fun c => ⟨f c.value, c.deadline⟩)⟩

def del (s : Store κ α) (k : κ) : Store κ α := ⟨Function.update s.cell k none⟩

variable (s : Store κ α) (now t ttl : Int) (k : κ) (v : α) (f : α → α)

private theorem find_update_self (c : Option (Cell α)) :
    (Store.mk (Function.update s.cell k c)).find now k = c.filter fun c => c.Live now := by
  simp [find]

@[simp] theorem find_set_self : (s.set k v).find now k = some ⟨v, none⟩ := by
  simp [find_eq_some, set]

theorem find_setEx_self :
    (s.setEx t k ttl v).find now k = if now < t + ttl then some ⟨v, some (t + ttl)⟩ else none := by
  rw [setEx, find_update_self]
  by_cases h : now < t + ttl <;> simp [Option.filter, h]

theorem find_expire_self :
    (s.expire t k ttl).find now k =
      if now < t + ttl then (s.find t k).map fun c => ⟨c.value, some (t + ttl)⟩ else none := by
  rw [expire, find_update_self]
  cases s.find t k with
  | none => simp
  | some c => by_cases h : now < t + ttl <;> simp [Option.filter, h]

theorem find_modify_self :
    (s.modify now k f).find now k = (s.find now k).map fun c => ⟨f c.value, c.deadline⟩ := by
  rw [modify, find_update_self]
  cases hfind : s.find now k with
  | none => rfl
  | some c =>
    have hlive : (Cell.mk (f c.value) c.deadline).Live now := (find_eq_some.mp hfind).2
    simp [Option.filter, hlive]

@[simp] theorem find_del_self : (s.del k).find now k = none := by
  simp [find, del]

variable {k} {k' : κ} (h : k' ≠ k)
include h

@[simp] theorem find_set_ne : (s.set k v).find now k' = s.find now k' := by
  simp [find, set, h]

@[simp] theorem find_setEx_ne : (s.setEx t k ttl v).find now k' = s.find now k' := by
  simp [find, setEx, h]

@[simp] theorem find_expire_ne : (s.expire t k ttl).find now k' = s.find now k' := by
  simp [find, expire, h]

@[simp] theorem find_modify_ne : (s.modify t k f).find now k' = s.find now k' := by
  simp [find, modify, h]

@[simp] theorem find_del_ne : (s.del k).find now k' = s.find now k' := by
  simp [find, del, h]

end Update

section Count

/-- The number under a key: an absent key counts as zero. -/
def count (s : Store κ Int) (now : Int) (k : κ) : Int := (s.get now k).getD 0

variable (s : Store κ Int) (now delta : Int) (k : κ)

theorem count_eq_of_find {s t : Store κ Int} {later : Int} (h : t.find later k = s.find now k) :
    t.count later k = s.count now k := by
  simp only [count, get, h]

/-- As time passes a number stays or goes with its key. -/
theorem count_later {now later : Int} (hle : now ≤ later) :
    s.contains later k = true ∧ s.count later k = s.count now k ∨
      s.contains later k = false ∧ s.count later k = 0 := by
  cases hfind : s.find later k with
  | none => exact .inr (by simp [contains, count, get, hfind])
  | some c => exact .inl (by simp [contains, count, get, hfind, find_earlier hfind hle])

variable [DecidableEq κ]

/-- `INCRBY`: an absent key is created without a deadline. -/
def incrBy (s : Store κ Int) (now : Int) (k : κ) (delta : Int) : Store κ Int :=
  match s.get now k with
  | some _ => s.modify now k (· + delta)
  | none => s.set k delta

@[simp] theorem count_incrBy_self : (s.incrBy now k delta).count now k = s.count now k + delta := by
  unfold incrBy
  cases hget : s.get now k with
  | none => simp [count, get, Option.map_eq_none_iff.mp hget]
  | some v =>
    obtain ⟨c, hfind, rfl⟩ := get_eq_some.mp hget
    simp [count, get, find_modify_self, hfind]

theorem find_incrBy_ne {k' : κ} (later : Int) (h : k' ≠ k) :
    (s.incrBy now k delta).find later k' = s.find later k' := by
  unfold incrBy
  split <;> simp [h]

@[simp] theorem count_incrBy_ne {k' : κ} (h : k' ≠ k) :
    (s.incrBy now k delta).count now k' = s.count now k' :=
  count_eq_of_find now k' (find_incrBy_ne s now delta k now h)

theorem count_expire {ttl : Int} (httl : 0 < ttl) (k' : κ) :
    (s.expire now k ttl).count now k' = s.count now k' := by
  by_cases h : k' = k
  · subst h
    have hlive : now < now + ttl := by omega
    unfold count get
    rw [find_expire_self, if_pos hlive, Option.map_map]
    rfl
  · exact count_eq_of_find now k' (find_expire_ne s now now ttl h)

@[simp] theorem count_del_self : (s.del k).count now k = 0 := by
  simp [count, get]

@[simp] theorem count_del_ne {k' : κ} (h : k' ≠ k) :
    (s.del k).count now k' = s.count now k' :=
  count_eq_of_find now k' (find_del_ne s now h)

end Count

end Store

end Expiring
