import Fctf.Deploy.Versions

/-!
When the requests keep the image of a challenge and its active version together. One commit is
split into its statements, for each of which a lemma says what it needs; a commit that changes the
image alone needs that no version is active.
-/

namespace Fctf.Versions

open Database

/-! ### Conditions -/

namespace Database

variable (db seen : Database)

/-- No version of the challenge is active. -/
def Inactive (challengeId : Nat) : Prop :=
  ∀ v ∈ db.versions.rows, v.challengeId = challengeId → v.isActive = false

instance decidableInactive (challengeId : Nat) : Decidable (db.Inactive challengeId) :=
  inferInstanceAs (Decidable (∀ _ ∈ _, _))

/-- The number of the new version is not given yet, and the image is not lost: either the request
writes it or it is there. A version that is not saved needs that none is active, unless the image
stays. -/
def KeepsOnSave (c current : Challenge) (imageLink : String) : Saving → Prop
  | .saved =>
    (∀ v ∈ db.versionsOf c.id, v.versionNumber ≠ seen.nextVersion c.id) ∧
      (c.imageLink = some imageLink → current.imageLink = some imageLink)
  | .failedBeforeDeactivation =>
    c.imageLink = some imageLink ∨ current.imageLink = some imageLink ∨ db.Inactive current.id
  | .failedAfterDeactivation => True

def KeepsOnUpload (c current : Challenge) : Outcome → Prop
  | .refused | .failed _ => True
  | .deployed _ imageLink saving =>
    c.deployStatus ≠ some "PENDING_DEPLOY" → db.KeepsOnSave seen c current imageLink saving

/-- There is no image to clear, or no version that has it. -/
def KeepsOnClear (c current : Challenge) : Prop :=
  c.imageLink = none ∨ current.imageLink = none ∨ db.Inactive current.id

/-- The image of the version is not lost: either the request writes it or it is there. -/
def KeepsOnRollback (c current : Challenge) (versionId : Nat) : Prop :=
  ∀ v ∈ seen.target c versionId, c.imageLink = v.imageLink → current.imageLink = v.imageLink

/-- The edit leaves the image, or no version is active. -/
def KeepsOnEdit (json : Json) (body : Edit) (current : Challenge) : Prop :=
  body.accepted = true → db.Replaces current.id (body.update json current) →
    (body.update json current).imageLink = current.imageLink ∨ db.Inactive current.id

end Database

/-- What a request has to meet, with the challenge as it has seen it and as it is. -/
def KeepsOnRow (json : Json) (seen db : Database) (c current : Challenge) : Request → Prop
  | .upload _ outcome => db.KeepsOnUpload seen c current outcome
  | .clear _ => db.KeepsOnClear c current
  | .rollback _ versionId => seen.KeepsOnRollback c current versionId
  | .edit _ body => db.KeepsOnEdit json body current

/-- What a request has to meet when it commits. -/
def KeepsOn (json : Json) (request : Request) (seen db : Database) : Prop :=
  ∀ c ∈ seen.challenges.find request.challengeId,
    ∀ current ∈ db.challenges.find request.challengeId, KeepsOnRow json seen db c current request

section Decidable

variable (db seen : Database) (c current : Challenge)

instance decidableKeepsOnSave (imageLink : String) : ∀ saving,
    Decidable (db.KeepsOnSave seen c current imageLink saving)
  | .saved => inferInstanceAs (Decidable ((∀ _ ∈ _, _) ∧ (_ → _)))
  | .failedBeforeDeactivation => inferInstanceAs (Decidable (_ ∨ _ ∨ _))
  | .failedAfterDeactivation => inferInstanceAs (Decidable True)

instance decidableKeepsOnUpload : ∀ outcome,
    Decidable (db.KeepsOnUpload seen c current outcome)
  | .refused | .failed _ => inferInstanceAs (Decidable True)
  | .deployed _ imageLink saving =>
    inferInstanceAs (Decidable (_ → db.KeepsOnSave seen c current imageLink saving))

instance decidableKeepsOnRow (json : Json) : ∀ request,
    Decidable (KeepsOnRow json seen db c current request)
  | .upload _ outcome => inferInstanceAs (Decidable (db.KeepsOnUpload seen c current outcome))
  | .clear _ => inferInstanceAs (Decidable (_ ∨ _ ∨ _))
  | .rollback _ _ => inferInstanceAs (Decidable (∀ _ ∈ _, _ → _))
  | .edit _ _ => inferInstanceAs (Decidable (_ → _ → (_ ∨ _)))

instance decidableKeepsOn (json : Json) (request : Request) :
    Decidable (KeepsOn json request seen db) :=
  inferInstanceAs (Decidable (∀ _ ∈ _, ∀ _ ∈ _, _))

end Decidable

/-! ### Rows of versions -/

section Rows

variable {db : Database} {v : ChallengeVersion}

theorem mem_deactivate {challengeId : Nat} :
    v ∈ (db.deactivate challengeId).versions.rows ↔
      ∃ w ∈ db.versions.rows, w.deactivated challengeId = v :=
  List.mem_map

theorem mem_activate {id : Nat} :
    v ∈ (db.activate id).versions.rows ↔ ∃ w ∈ db.versions.rows, w.activated id = v :=
  List.mem_map

theorem mem_addVersion {version : Nat → ChallengeVersion} {hid : ∀ n, (version n).id = n}
    (hkey : (db.challenges.find (version db.versions.nextKey).challengeId).isSome = true) :
    v ∈ (db.addVersion version hid).versions.rows ↔
      v ∈ db.versions.rows ∨ v = version db.versions.nextKey := by
  rw [addVersion, dif_pos hkey]
  exact @Table.mem_add _ _ db.versions version hid v

/-- The numbers of the versions are the same when they are not active. -/
theorem numbers_deactivate_iff (db : Database) (challengeId n : Nat) :
    (∀ v ∈ (db.deactivate challengeId).versionsOf challengeId, v.versionNumber ≠ n) ↔
      ∀ v ∈ db.versionsOf challengeId, v.versionNumber ≠ n := by
  have hversions : (db.deactivate challengeId).versionsOf challengeId =
      (db.versionsOf challengeId).map (ChallengeVersion.deactivated challengeId) := List.filter_map
  rw [hversions]
  exact List.forall_mem_map

end Rows

/-! ### Versions stay -/

section Continues

/-- The versions stay, with their challenges and images. -/
def Continues (a b : Database) : Prop :=
  ∀ v ∈ a.versions.rows, ∃ w ∈ b.versions.rows,
    w.id = v.id ∧ w.challengeId = v.challengeId ∧ w.imageLink = v.imageLink

theorem Continues.refl (a : Database) : Continues a a := fun v hv => ⟨v, hv, rfl, rfl, rfl⟩

theorem Continues.trans {a b c : Database} (h : Continues a b) (h' : Continues b c) :
    Continues a c := by
  intro v hv
  obtain ⟨w, hw, hid, hchallenge, himage⟩ := h v hv
  obtain ⟨x, hx, hid', hchallenge', himage'⟩ := h' w hw
  exact ⟨x, hx, hid'.trans hid, hchallenge'.trans hchallenge, himage'.trans himage⟩

variable (db seen : Database)

theorem continues_flush (loaded changed : Challenge) : Continues db (db.flush loaded changed) :=
  Continues.refl db

theorem continues_deactivate (challengeId : Nat) : Continues db (db.deactivate challengeId) :=
  fun v hv => ⟨v.deactivated challengeId, List.mem_map_of_mem hv, rfl, rfl, rfl⟩

theorem continues_activate (id : Nat) : Continues db (db.activate id) :=
  fun v hv => ⟨v.activated id, List.mem_map_of_mem hv, rfl, rfl, rfl⟩

theorem continues_addVersion (version : Nat → ChallengeVersion) (hid : ∀ n, (version n).id = n) :
    Continues db (db.addVersion version hid) := by
  by_cases hkey : (db.challenges.find (version db.versions.nextKey).challengeId).isSome = true
  · exact fun v hv => ⟨v, (mem_addVersion hkey).mpr (Or.inl hv), rfl, rfl, rfl⟩
  · rw [addVersion, dif_neg hkey]
    exact Continues.refl db

theorem continues_saveVersion (c : Challenge) (imageLink : String) (saving : Saving) :
    Continues db (db.saveVersion seen c imageLink saving) := by
  cases saving with
  | saved => exact (continues_deactivate db c.id).trans (continues_addVersion _ _ _)
  | failedBeforeDeactivation => exact Continues.refl db
  | failedAfterDeactivation => exact continues_deactivate db c.id

theorem continues_upload (c : Challenge) (outcome : Outcome) :
    Continues db (db.upload seen c outcome) := by
  cases outcome with
  | refused => exact Continues.refl db
  | failed deployFile => exact continues_flush db c _
  | deployed deployFile imageLink saving =>
    rw [upload]
    split
    · exact Continues.refl db
    · exact (continues_flush db c _).trans (continues_saveVersion _ _ _ _ _)

theorem continues_rollback (c : Challenge) (versionId : Nat) :
    Continues db (db.rollback seen c versionId) := by
  rw [rollback]
  split
  · exact Continues.refl db
  · exact ((continues_deactivate db c.id).trans (continues_activate _ _)).trans
      (continues_flush _ _ _)

theorem continues_edit (json : Json) (body : Edit) (current : Challenge) :
    Continues db (db.edit json body current) := by
  rw [edit, replace]
  split
  · split <;> exact Continues.refl db
  · exact Continues.refl db

theorem continues_commit (json : Json) (request : Request) :
    Continues db (commit json request seen db) := by
  rw [commit]
  split
  · rename_i c current _ _
    cases request with
    | upload _ outcome => exact continues_upload db seen c outcome
    | clear _ => exact continues_flush db c _
    | rollback _ versionId => exact continues_rollback db seen c versionId
    | edit _ body => exact continues_edit db json body current
  · exact Continues.refl db

end Continues

/-! ### One statement -/

section Statements

theorem written_eq_current {α : Type} [DecidableEq α] {loaded changed current : α} :
    written loaded changed current = current ↔ loaded = changed ∨ current = changed := by
  rw [written]
  split
  · rename_i hsame
    simp [hsame]
  · rename_i hchanged
    simp [Ne.symm hchanged, eq_comm]

theorem written_eq_changed {α : Type} [DecidableEq α] {loaded changed current : α} :
    written loaded changed current = changed ↔ (loaded = changed → current = changed) := by
  rw [written]
  split
  · rename_i hsame
    simp [hsame]
  · rename_i hchanged
    simp [Ne.symm hchanged]

variable {db : Database} (h : db.Integrity)

include h

/-- With the same versions only the images count. -/
theorem integrity_iff_image {db' : Database} (hversions : db'.versions = db.versions) :
    db'.Integrity ↔ ∀ v ∈ db.versions.rows, v.isActive = true →
      ∀ c ∈ db'.challenges.find v.challengeId, v.imageLink = c.imageLink := by
  constructor
  · intro h'
    rw [← hversions]
    exact h'.image
  · intro himage
    constructor
    · rw [hversions]
      exact h.active
    · rw [hversions]
      exact h.numbers
    · rw [hversions]
      exact himage

/-- An image that is changed alone: it stays the same, or no version is active. -/
theorem image_iff {current : Challenge} (hfind : db.challenges.find current.id = some current)
    {challenges : Nat → Option Challenge} {c : Challenge}
    (hchanged : challenges current.id = some c)
    (hothers : ∀ id, id ≠ current.id → ∀ v ∈ db.versions.rows, v.challengeId = id →
      challenges id = db.challenges.find id) :
    (∀ v ∈ db.versions.rows, v.isActive = true →
      ∀ d ∈ challenges v.challengeId, v.imageLink = d.imageLink) ↔
        c.imageLink = current.imageLink ∨ db.Inactive current.id := by
  constructor
  · intro himage
    by_contra hnone
    obtain ⟨hother, hactive⟩ := not_or.mp hnone
    simp only [Inactive, not_forall, Bool.not_eq_false] at hactive
    obtain ⟨v, hv, hid, hon⟩ := hactive
    refine hother ?_
    rw [← himage v hv hon c (hid ▸ hchanged), h.image v hv hon current (hid ▸ hfind)]
  · intro hkeeps v hv hon d hd
    by_cases hid : v.challengeId = current.id
    · rw [hid, hchanged] at hd
      obtain rfl := Option.some.inj hd
      rcases hkeeps with hsame | hinactive
      · rw [hsame]
        exact h.image v hv hon current (hid ▸ hfind)
      · rw [hinactive v hv hid] at hon
        cases hon
    · rw [hothers _ hid v hv rfl] at hd
      exact h.image v hv hon d hd

theorem integrity_flush_iff {c changed current : Challenge} (hid : current.id = c.id)
    (hfind : db.challenges.find c.id = some current) :
    (db.flush c changed).Integrity ↔
      (c.imageLink = changed.imageLink ∨ current.imageLink = changed.imageLink) ∨
        db.Inactive current.id := by
  rw [← hid] at hfind
  have hversions : (db.flush c changed).versions = db.versions := rfl
  rw [integrity_iff_image h hversions, ← written_eq_current]
  refine image_iff h hfind (c := c.flush changed current) ?_ ?_
  · rw [flush, Table.find_update, if_pos hid, hfind]
    rfl
  · intro id hne _ _ _
    rw [flush, Table.find_update, if_neg (hid ▸ hne)]

theorem integrity_replace_iff {c current : Challenge}
    (hfind : db.challenges.find current.id = some current) (hreplaces : db.Replaces current.id c) :
    (db.replace current.id c).Integrity ↔
      c.imageLink = current.imageLink ∨ db.Inactive current.id := by
  have hreplace : (db.replace current.id c).versions = db.versions ∧
      ∀ id, (db.replace current.id c).challenges.find id =
        if id = c.id then some c
        else (db.challenges.find id).filter fun d => decide (d.id ≠ current.id) := by
    rw [replace, dif_pos hreplaces]
    exact ⟨rfl, fun id => by rw [Table.find_put, Table.find_filter]⟩
  have hstays : ∀ id, id ≠ current.id →
      ((db.challenges.find id).filter fun d => decide (d.id ≠ current.id)) =
        db.challenges.find id := by
    intro id hne
    cases hfind : db.challenges.find id with
    | none => rfl
    | some d =>
      have hkey : d.id = id := Table.key_of_find hfind
      simp [hkey, hne]
  rw [integrity_iff_image h hreplace.1]
  rcases hreplaces with hsame | ⟨hfree, hnone⟩
  · refine image_iff h hfind ?_ ?_
    · rw [hreplace.2, if_pos hsame.symm]
    · intro id hne _ _ _
      rw [hreplace.2, if_neg (hsame ▸ hne), hstays id hne]
  · refine iff_of_true ?_ (Or.inr fun v hv hid => absurd hid (hnone v hv))
    intro v hv hon d hd
    have hne : v.challengeId ≠ c.id := by
      intro hid
      have hsome := db.references v hv
      rw [hid, Option.isNone_iff_eq_none.mp hfree] at hsome
      cases hsome
    rw [hreplace.2, if_neg hne, hstays _ (hnone v hv)] at hd
    exact h.image v hv hon d hd

/-- Of a challenge whose versions are not active. -/
theorem integrity_deactivate (challengeId : Nat) :
    (db.deactivate challengeId).Integrity ∧ (db.deactivate challengeId).Inactive challengeId := by
  constructor
  · constructor
    · rintro _ hin _ hin' hchallenge hon hon'
      obtain ⟨v, hv, rfl⟩ := mem_deactivate.mp hin
      obtain ⟨w, hw, rfl⟩ := mem_deactivate.mp hin'
      exact congrArg _ (h.active v hv w hw hchallenge (Bool.and_elim_left hon)
        (Bool.and_elim_left hon'))
    · rintro _ hin _ hin' hchallenge hnumber
      obtain ⟨v, hv, rfl⟩ := mem_deactivate.mp hin
      obtain ⟨w, hw, rfl⟩ := mem_deactivate.mp hin'
      exact congrArg _ (h.numbers v hv w hw hchallenge hnumber)
    · rintro _ hin hon
      obtain ⟨v, hv, rfl⟩ := mem_deactivate.mp hin
      exact h.image v hv (Bool.and_elim_left hon)
  · rintro _ hin hchallenge
    obtain ⟨v, hv, rfl⟩ := mem_deactivate.mp hin
    have hchallenge : v.challengeId = challengeId := hchallenge
    simp [ChallengeVersion.deactivated, hchallenge]

/-- The statements on the versions and those on the challenge do not meet. -/
theorem integrity_deactivate_flush {c : Challenge} (changed : Challenge) {current : Challenge}
    (hid : current.id = c.id) (hfind : db.challenges.find c.id = some current) :
    ((db.flush c changed).deactivate c.id).Integrity ∧
      ((db.flush c changed).deactivate c.id).Inactive c.id := by
  obtain ⟨hdeactivated, hinactive⟩ := integrity_deactivate h c.id
  refine ⟨?_, hinactive⟩
  exact (integrity_flush_iff hdeactivated hid hfind).mpr (Or.inr (hid ▸ hinactive))

theorem integrity_addVersion_iff {current : Challenge} {version : Nat → ChallengeVersion}
    {hid : ∀ n, (version n).id = n}
    (hinactive : db.Inactive (version db.versions.nextKey).challengeId)
    (hfind : db.challenges.find (version db.versions.nextKey).challengeId = some current)
    (hon : (version db.versions.nextKey).isActive = true) :
    (db.addVersion version hid).Integrity ↔
      (∀ v ∈ db.versionsOf (version db.versions.nextKey).challengeId,
        v.versionNumber ≠ (version db.versions.nextKey).versionNumber) ∧
        (version db.versions.nextKey).imageLink = current.imageLink := by
  have hkey : (db.challenges.find (version db.versions.nextKey).challengeId).isSome = true := by
    rw [hfind]
    rfl
  have hmem : ∀ v, v ∈ (db.addVersion version hid).versions.rows ↔
      v ∈ db.versions.rows ∨ v = version db.versions.nextKey := fun _ => mem_addVersion hkey
  have hchallenges : (db.addVersion version hid).challenges = db.challenges := by
    rw [addVersion, dif_pos hkey]
  have hnew : ∀ v ∈ db.versions.rows, v ≠ version db.versions.nextKey := by
    rintro v hv rfl
    have hlt := Table.lt_nextKey hv
    rw [hid] at hlt
    exact lt_irrefl _ hlt
  constructor
  · intro h'
    constructor
    · intro v hv hnumber
      obtain ⟨hv, hchallenge⟩ := List.mem_filter.mp hv
      refine hnew v hv (h'.numbers v ((hmem v).mpr (Or.inl hv)) _ ((hmem _).mpr (Or.inr rfl)) ?_
        hnumber)
      exact of_decide_eq_true hchallenge
    · refine h'.image _ ((hmem _).mpr (Or.inr rfl)) hon current ?_
      rw [hchallenges]
      exact hfind
  · rintro ⟨hfresh, himage⟩
    have hfresh : ∀ v ∈ db.versions.rows,
        v.challengeId = (version db.versions.nextKey).challengeId →
          v.versionNumber ≠ (version db.versions.nextKey).versionNumber := by
      intro v hv hchallenge
      exact hfresh v (List.mem_filter.mpr ⟨hv, decide_eq_true hchallenge⟩)
    constructor
    · intro v hv w hw hchallenge hvon hwon
      rcases (hmem v).mp hv with hv | rfl <;> rcases (hmem w).mp hw with hw | rfl
      · exact h.active v hv w hw hchallenge hvon hwon
      · rw [hinactive v hv hchallenge] at hvon
        cases hvon
      · rw [hinactive w hw hchallenge.symm] at hwon
        cases hwon
      · rfl
    · intro v hv w hw hchallenge hnumber
      rcases (hmem v).mp hv with hv | rfl <;> rcases (hmem w).mp hw with hw | rfl
      · exact h.numbers v hv w hw hchallenge hnumber
      · exact absurd hnumber (hfresh v hv hchallenge)
      · exact absurd hnumber.symm (hfresh w hw hchallenge.symm)
      · rfl
    · intro v hv hvon c hc
      rw [hchallenges] at hc
      rcases (hmem v).mp hv with hv | rfl
      · exact h.image v hv hvon c hc
      · obtain rfl := Option.some.inj (hc.symm.trans hfind)
        exact himage

theorem integrity_activate_iff {current : Challenge} {w : ChallengeVersion}
    (hw : w ∈ db.versions.rows) (hinactive : db.Inactive w.challengeId)
    (hfind : db.challenges.find w.challengeId = some current) :
    (db.activate w.id).Integrity ↔ w.imageLink = current.imageLink := by
  have hself : w.activated w.id ∈ (db.activate w.id).versions.rows := List.mem_map_of_mem hw
  have hon : ∀ v ∈ db.versions.rows, (v.activated w.id).isActive = true →
      v.isActive = true ∨ v = w := by
    intro v hv hactive
    rcases (Bool.or_eq_true _ _).mp hactive with hactive | hid
    · exact Or.inl hactive
    · exact Or.inr (Table.eq_of_key hv hw (of_decide_eq_true hid))
  constructor
  · intro h'
    refine h'.image _ hself ?_ current hfind
    simp [ChallengeVersion.activated]
  · intro himage
    constructor
    · rintro _ hin _ hin' hchallenge hvon hxon
      obtain ⟨v, hv, rfl⟩ := mem_activate.mp hin
      obtain ⟨x, hx, rfl⟩ := mem_activate.mp hin'
      have hchallenge : v.challengeId = x.challengeId := hchallenge
      rcases hon v hv hvon with hold | rfl <;> rcases hon x hx hxon with hold' | rfl
      · exact congrArg _ (h.active v hv x hx hchallenge hold hold')
      · rw [hinactive v hv hchallenge] at hold
        cases hold
      · rw [hinactive x hx hchallenge.symm] at hold'
        cases hold'
      · rfl
    · rintro _ hin _ hin' hchallenge hnumber
      obtain ⟨v, hv, rfl⟩ := mem_activate.mp hin
      obtain ⟨x, hx, rfl⟩ := mem_activate.mp hin'
      exact congrArg _ (h.numbers v hv x hx hchallenge hnumber)
    · rintro _ hin hvon c hc
      obtain ⟨v, hv, rfl⟩ := mem_activate.mp hin
      have hc : db.challenges.find v.challengeId = some c := hc
      rcases hon v hv hvon with hold | rfl
      · exact h.image v hv hold c hc
      · obtain rfl := Option.some.inj (hc.symm.trans hfind)
        exact himage

end Statements

/-! ### Requests -/

section Requests

variable {seen db : Database} (h : db.Integrity) {c current : Challenge}

include h

theorem integrity_saveVersion_iff {deployFile imageLink : String} (hid : current.id = c.id)
    (hfind : db.challenges.find c.id = some current) (saving : Saving) :
    ((db.flush c (deployed deployFile imageLink c)).saveVersion seen
        (deployed deployFile imageLink c) imageLink saving).Integrity ↔
      db.KeepsOnSave seen c current imageLink saving := by
  obtain ⟨hintegrity, hinactive⟩ :=
    integrity_deactivate_flush h (deployed deployFile imageLink c) hid hfind
  cases saving with
  | saved =>
    have hfind' : ((db.flush c (deployed deployFile imageLink c)).deactivate c.id).challenges.find
        c.id = some (c.flush (deployed deployFile imageLink c) current) := by
      rw [deactivate, flush, Table.find_update, if_pos rfl, hfind]
      rfl
    refine (integrity_addVersion_iff hintegrity hinactive hfind' rfl).trans ?_
    refine and_congr ?_ (eq_comm.trans written_eq_changed)
    exact numbers_deactivate_iff (db.flush c (deployed deployFile imageLink c)) c.id _
  | failedBeforeDeactivation =>
    rw [saveVersion, integrity_flush_iff h hid hfind, KeepsOnSave, or_assoc]
    rfl
  | failedAfterDeactivation => exact iff_of_true hintegrity trivial

theorem integrity_upload_iff (hid : current.id = c.id)
    (hfind : db.challenges.find c.id = some current) (outcome : Outcome) :
    (db.upload seen c outcome).Integrity ↔ db.KeepsOnUpload seen c current outcome := by
  cases outcome with
  | refused => exact iff_of_true h trivial
  | failed deployFile =>
    refine iff_of_true ((integrity_flush_iff h hid hfind).mpr ?_) trivial
    exact Or.inl (Or.inl rfl)
  | deployed deployFile imageLink saving =>
    rw [upload, KeepsOnUpload]
    split
    · rename_i hpending
      exact iff_of_true h fun hready => absurd hpending hready
    · rename_i hready
      rw [forall_prop_of_true hready]
      exact integrity_saveVersion_iff h hid hfind saving

theorem integrity_rollback_iff (hseen : Continues seen db) (hid : current.id = c.id)
    (hfind : db.challenges.find c.id = some current) (versionId : Nat) :
    (db.rollback seen c versionId).Integrity ↔ seen.KeepsOnRollback c current versionId := by
  rw [rollback, KeepsOnRollback]
  cases htarget : seen.target c versionId with
  | none => simpa using h
  | some v =>
    obtain ⟨hv, hof⟩ := Option.filter_eq_some_iff.mp htarget
    have hchallenge : v.challengeId = c.id := by
      simp only [Bool.and_eq_true, decide_eq_true_eq] at hof
      exact hof.1.1
    obtain ⟨w, hw, hwid, hwchallenge, hwimage⟩ := hseen v (Table.mem_of_find hv)
    obtain ⟨hintegrity, hinactive⟩ := integrity_deactivate_flush h (rolledBack v c) hid hfind
    -- The row of the version is there, and it is set active among inactive ones.
    have hwchallenge : (w.deactivated c.id).challengeId = c.id := hwchallenge.trans hchallenge
    have hfind' : ((db.flush c (rolledBack v c)).deactivate c.id).challenges.find
        (w.deactivated c.id).challengeId = some (c.flush (rolledBack v c) current) := by
      rw [hwchallenge, deactivate, flush, Table.find_update, if_pos rfl, hfind]
      rfl
    have hactivate := integrity_activate_iff hintegrity (mem_deactivate.mpr ⟨w, hw, rfl⟩)
      (by rwa [hwchallenge]) hfind'
    have hcommute : ((db.deactivate c.id).activate v.id).flush c (rolledBack v c) =
        ((db.flush c (rolledBack v c)).deactivate c.id).activate (w.deactivated c.id).id := by
      rw [show (w.deactivated c.id).id = v.id from hwid]
      rfl
    have hwritten : written c.imageLink v.imageLink current.imageLink = v.imageLink ↔
        (c.imageLink = v.imageLink → current.imageLink = v.imageLink) := written_eq_changed
    simp only [Option.mem_def, Option.some.injEq, forall_eq']
    rw [hcommute, hactivate, ← hwritten, eq_comm]
    rw [show (w.deactivated c.id).imageLink = v.imageLink from hwimage]
    rfl

theorem integrity_edit_iff (hfind : db.challenges.find current.id = some current) (json : Json)
    (body : Edit) : (db.edit json body current).Integrity ↔ db.KeepsOnEdit json body current := by
  rw [edit, KeepsOnEdit]
  split
  · rename_i haccepted
    rw [forall_prop_of_true haccepted]
    by_cases hreplaces : db.Replaces current.id (body.update json current)
    · rw [forall_prop_of_true hreplaces]
      exact integrity_replace_iff h hfind hreplaces
    · rw [replace, dif_neg hreplaces]
      exact iff_of_true h fun hother => absurd hother hreplaces
  · rename_i hrefused
    exact iff_of_true h fun haccepted => absurd haccepted hrefused

theorem integrity_commit_iff (json : Json) (hseen : Continues seen db) (request : Request) :
    (commit json request seen db).Integrity ↔ KeepsOn json request seen db := by
  rw [commit, KeepsOn]
  cases hc : seen.challenges.find request.challengeId with
  | none => simpa using h
  | some c =>
    cases hcurrent : db.challenges.find request.challengeId with
    | none => simpa using h
    | some current =>
      have hkey : c.id = request.challengeId := Table.key_of_find hc
      have hkey' : current.id = request.challengeId := Table.key_of_find hcurrent
      have hid : current.id = c.id := hkey'.trans hkey.symm
      have hfind : db.challenges.find c.id = some current := by rwa [hkey]
      simp only [Option.mem_def, Option.some.injEq, forall_eq']
      cases request with
      | upload _ outcome => exact integrity_upload_iff h hid hfind outcome
      | clear _ => exact (integrity_flush_iff h hid hfind).trans or_assoc
      | rollback _ versionId => exact integrity_rollback_iff h hseen hid hfind versionId
      | edit _ body =>
        refine integrity_edit_iff h ?_ json body
        rwa [hkey']

end Requests

/-! ### Runs -/

section Runs

open Snapshot

/-- All along a run of requests that overlap in any way, the versions of every challenge are in
order exactly when every request meets its condition as it commits. -/
theorem integrity_iff (json : Json) (db : Database) (hstart : db.Integrity)
    (events : List (Event Request)) :
    (∀ t ∈ Run.visited (step (commit json)) ⟨db, []⟩ events, t.db.Integrity) ↔
      Run.Meets (step (commit json)) (Allowed (KeepsOn json)) ⟨db, []⟩ events := by
  refine forall_visited_iff Continues.refl Continues.trans ?_ ?_ events hstart
  · exact fun request seen db => continues_commit db seen json request
  · exact fun request seen db hseen h => integrity_commit_iff h json hseen request

/-- A `json` for runs in which no port is edited: it reads no text. -/
def noJson : Json where
  Value := String
  loads := fun _ => none
  dict := fun _ => none
  str := id
  dumps := fun _ => "{}"

/-- A challenge that is not deployed yet. -/
def undeployed : Database where
  challenges := { rows := [{ id := 1 }] }

/-- Its first upload saves its first version. -/
theorem integrity_first_upload : undeployed.Integrity ∧
    ∀ t ∈ Run.visited (step (commit noJson)) ⟨undeployed, []⟩
      [.begins (.upload 1 (.deployed "web" "web:1" .saved)), .commits 0], t.db.Integrity := by
  have hstart : undeployed.Integrity := by decide
  exact ⟨hstart, (integrity_iff noJson undeployed hstart _).mpr (by decide)⟩

/-- A challenge with its first version. -/
def oneVersion : Database where
  challenges := { rows := [{ id := 1, requireDeploy := true, imageLink := some "web:1" }] }
  versions := {
    rows := [{ id := 1, challengeId := 1, imageLink := some "web:1", isActive := true }] }

/-- The deployment is removed, and its version stays active. -/
theorem cleared_version_active : ¬ ∀ (json : Json) (db : Database) (events : List (Event Request)),
    db.Integrity → ∀ t ∈ Run.visited (step (commit json)) ⟨db, []⟩ events, t.db.Integrity := by
  intro h
  have hcleared := h noJson oneVersion [.begins (.clear 1), .commits 0] (by decide)
    ⟨commit noJson (.clear 1) oneVersion oneVersion, []⟩ (by simp [Run.visited, step])
  exact absurd hcleared (by decide)

end Runs

end Fctf.Versions
