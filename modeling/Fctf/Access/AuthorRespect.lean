import Fctf.Access.Authorship

/-!
When a request leaves the challenges of other authors as they are. Every endpoint changes few
tables, so the question splits into one for each table, and each of these into the rows that the
endpoint writes.
-/

namespace Fctf.Authorship

open Site

variable {X : Type}

/-- The id is that of a challenge whose author is another user. -/
def Site.Foreign (s : Site X) (u : Nat) (challengeId : Option Nat) : Prop :=
  ∃ id ∈ challengeId, ∃ c ∈ s.challenges.find id, c.userId ≠ u

instance decidableForeign (s : Site X) (u : Nat) (challengeId : Option Nat) :
    Decidable (s.Foreign u challengeId) :=
  inferInstanceAs (Decidable (∃ _ ∈ _, ∃ _ ∈ _, _))

/-- The uploaded file belongs to a file of another author's challenge. -/
def Site.ForeignUpload (s : Site X) (u : Nat) (location : Location) : Prop :=
  ∃ f ∈ s.files.rows, f.location = location ∧ s.Foreign u f.challenge_id

/-- The path lies in the source folder of another author's challenge. -/
def Site.ForeignSource (s : Site X) (u : Nat) (path : Path) : Prop :=
  ∃ c ∈ s.challenges.rows, c.userId ≠ u ∧ ∃ folder ∈ c.deployFile, under folder path = true

/-- The challenges of other authors, with their flags, files, versions and source folders, are
the same. -/
structure Respects (u : Nat) (s s' : Site X) : Prop where
  challenges : s.challenges.Keeps (fun c => c.userId ≠ u) s'.challenges
  flags : s.flags.Keeps (fun f => s.Foreign u f.challengeId) s'.flags
  files : s.files.Keeps (fun f => s.Foreign u f.challenge_id) s'.files
  versions : s.versions.Keeps (fun v => s.Foreign u (some v.challengeId)) s'.versions
  uploads : s.uploads.Keeps (fun a => s.ForeignUpload u a.1) s'.uploads
  sources : s.sources.Keeps (fun a => s.ForeignSource u a.1) s'.sources

section Tables

variable {s : Site X} {u : Nat}

theorem Respects.refl (u : Nat) (s : Site X) : Respects u s s :=
  ⟨Table.Keeps.refl _ _, Table.Keeps.refl _ _, Table.Keeps.refl _ _, Table.Keeps.refl _ _,
    Table.Keeps.refl _ _, Table.Keeps.refl _ _⟩

theorem respects_challenges {challenges : Table (Challenge.id (X := X))} :
    Respects u s { s with challenges := challenges } ↔
      s.challenges.Keeps (fun c => c.userId ≠ u) challenges :=
  ⟨fun h => h.challenges, fun h => { Respects.refl u s with challenges := h }⟩

theorem respects_flags {flags : Table (Flag.id (X := X))} :
    Respects u s { s with flags := flags } ↔
      s.flags.Keeps (fun f => s.Foreign u f.challengeId) flags :=
  ⟨fun h => h.flags, fun h => { Respects.refl u s with flags := h }⟩

theorem respects_store {store : FileStore X} :
    Respects u s { s with toFileStore := store } ↔
      s.files.Keeps (fun f => s.Foreign u f.challenge_id) store.files ∧
        s.uploads.Keeps (fun a => s.ForeignUpload u a.1) store.uploads :=
  ⟨fun h => ⟨h.files, h.uploads⟩,
    fun h => { Respects.refl u s with files := h.1, uploads := h.2 }⟩

/-- A challenge that is there is foreign when its author is another user. -/
theorem foreign_iff {c : Challenge X} (hc : s.challenges.find c.id = some c) :
    s.Foreign u (some c.id) ↔ c.userId ≠ u := by
  constructor
  · rintro ⟨id, hid, d, hd, hne⟩
    obtain rfl := Option.some.inj hid
    obtain rfl := Option.some.inj (hd.symm.trans hc)
    exact hne
  · intro hne
    exact ⟨c.id, rfl, c, hc, hne⟩

end Tables

section Flags

variable (s : Site X) (u : Nat)

/-- A new flag is not for another author's challenge. -/
def Site.SparesOnPostFlag (body : FlagBody X) : Prop :=
  body.accepted = true → s.Known body.challengeId → ¬ s.Foreign u (body.challengeOf none)

/-- A flag that is changed neither leaves nor enters another author's challenge. -/
def Site.SparesOnPatchFlag (id : Nat) (body : FlagBody X) : Prop :=
  ∀ f ∈ s.flags.find id, body.accepted = true → s.Known body.challengeId →
    body.apply f = f ∨
      (¬ s.Foreign u (body.challengeOf f.challengeId) ∧ ¬ s.Foreign u f.challengeId)

/-- A deleted flag is not one of another author's challenge. -/
def Site.SparesOnDeleteFlag (id : Nat) : Prop :=
  ∀ f ∈ s.flags.find id, ¬ s.Foreign u f.challengeId

variable {s u}

theorem postFlag_respects_iff {body : FlagBody X} {content : X} :
    Respects u s (s.postFlag body content) ↔ s.SparesOnPostFlag u body := by
  rw [postFlag]
  split
  · rename_i hposts
    rw [respects_flags, Table.keeps_add]
    exact ⟨fun h _ _ => h, fun h => h hposts.1 hposts.2⟩
  · rename_i hposts
    constructor
    · intro _ haccepted hknown
      exact absurd ⟨haccepted, hknown⟩ hposts
    · intro _
      exact Respects.refl u s

theorem patchFlag_respects_iff {id : Nat} {body : FlagBody X} :
    Respects u s (s.patchFlag id body) ↔ s.SparesOnPatchFlag u id body := by
  rw [patchFlag, SparesOnPatchFlag]
  cases hfind : s.flags.find id with
  | none => simpa using Respects.refl u s
  | some f =>
    have hkey : f.id = id := Table.key_of_find hfind
    have hid : (body.apply f).id = id := hkey
    simp only [Option.mem_def, Option.some.injEq, forall_eq']
    split
    · rename_i hpatches
      rw [respects_flags, Table.keeps_put, hid, hfind]
      simp only [Option.mem_def, Option.some.injEq, forall_eq, FlagBody.apply, hpatches.1,
        hpatches.2, forall_const, eq_comm (a := f)]
    · rename_i hpatches
      constructor
      · intro _ haccepted hknown
        exact absurd ⟨haccepted, hknown⟩ hpatches
      · intro _
        exact Respects.refl u s

theorem deleteFlag_respects_iff {id : Nat} :
    Respects u s (s.deleteFlag id) ↔ s.SparesOnDeleteFlag u id := by
  rw [deleteFlag, respects_flags]
  exact Table.keeps_erase

end Flags

section Deletion

variable (s : Site X) (u : Nat)

/-- With the upload of a file its directory is deleted, and no upload of another author's
challenge is in it. -/
def Site.SparesUploads (f : File X) : Prop :=
  (s.uploads.find f.location).isSome = true → ∀ a ∈ s.uploads.rows,
    a.1.1 = f.location.1 → ¬ s.ForeignUpload u a.1

/-- Below a folder there is no source of another author's challenge. -/
def Site.SparesFolder (folder : Option Path) : Prop :=
  ∀ path ∈ folder, ∀ a ∈ s.sources.rows,
    under path a.1 = true → a.1 ≠ path → ¬ s.ForeignSource u a.1

/-- A deleted file is not one of another author's challenge. -/
def Site.SparesOnDeleteFile (id : Nat) : Prop :=
  ∀ f ∈ s.files.find id, ¬ s.Foreign u f.challenge_id ∧ s.SparesUploads u f

/-- A deleted challenge is the user's, no other author's challenge names it as the next one, and
its uploads and its folder are apart from theirs. -/
def Site.SparesOnDeleteChallenge (id : Nat) : Prop :=
  ∀ c ∈ s.challenges.find id, c.usable = true →
    c.userId = u ∧ (∀ d ∈ s.challenges.rows, d.userId ≠ u → d.nextId ≠ some id) ∧
      (∀ f ∈ s.filesOf id, s.SparesUploads u f) ∧
        (c.requireDeploy = true → s.SparesFolder u c.deployFile)

variable {s u}

theorem mem_deleteUpload {uploads : Table (Prod.fst : Location × X → Location)}
    {location : Location} {a : Location × X} :
    a ∈ (deleteUpload uploads location).rows ↔
      a ∈ uploads.rows ∧ ((uploads.find location).isSome = true → a.1.1 ≠ location.1) := by
  rw [deleteUpload]
  split
  · rename_i hstored
    simp [Table.mem_filter, hstored]
  · rename_i hmissing
    simp [hmissing]

/-- When the directory of an upload goes, the other uploads in it are not there to be deleted. -/
theorem find_deleteUpload {uploads : Table (Prod.fst : Location × X → Location)}
    {location other : Location}
    (hapart : (uploads.find location).isSome = true → other.1 ≠ location.1) :
    (deleteUpload uploads location).find other = uploads.find other := by
  rw [deleteUpload]
  split
  · rename_i hstored
    rw [Table.find_filter]
    cases hfind : uploads.find other with
    | none => rfl
    | some a =>
      have hkey : a.1 = other := Table.key_of_find hfind
      simp [hkey, hapart hstored]
  · rfl

/-- What is left of the uploads when the files of a list are deleted one after the other. -/
theorem mem_foldl_deleteUpload {files : List (File X)} {a : Location × X} :
    ∀ {uploads : Table (Prod.fst : Location × X → Location)},
      a ∈ (files.foldl (fun uploads f => deleteUpload uploads f.location) uploads).rows ↔
        a ∈ uploads.rows ∧
          ∀ f ∈ files, (uploads.find f.location).isSome = true → a.1.1 ≠ f.location.1 := by
  induction files with
  | nil => simp
  | cons f files ih =>
    intro uploads
    rw [List.foldl_cons, ih, mem_deleteUpload, List.forall_mem_cons, and_assoc]
    refine and_congr_right fun _ => and_congr_right fun hf => forall₂_congr fun g _ => ?_
    by_cases hdir : a.1.1 = g.location.1
    · rw [find_deleteUpload fun hstored heq => hf hstored (hdir.trans heq)]
    · simp [hdir]

theorem keeps_deleteUploads {files : List (File X)} :
    s.uploads.Keeps (fun a => s.ForeignUpload u a.1)
        (files.foldl (fun uploads f => deleteUpload uploads f.location) s.uploads) ↔
      ∀ f ∈ files, s.SparesUploads u f := by
  constructor
  · intro h f hf hstored a ha hdir hforeign
    exact (mem_foldl_deleteUpload.mp ((h a hforeign).mpr ha)).2 f hf hstored hdir
  · intro h a hforeign
    rw [mem_foldl_deleteUpload, and_iff_left_iff_imp]
    intro ha f hf hstored hdir
    exact h f hf hstored a ha hdir hforeign

theorem keeps_deleteFolder {folder : Option Path} :
    s.sources.Keeps (fun a => s.ForeignSource u a.1) (deleteFolder s.sources folder) ↔
      s.SparesFolder u folder := by
  cases folder with
  | none => simpa [SparesFolder, deleteFolder] using Table.Keeps.refl _ _
  | some folder =>
    rw [deleteFolder, Table.keeps_filter, SparesFolder]
    simp only [Option.mem_def, Option.some.injEq, forall_eq', Bool.not_eq_true',
      Bool.and_eq_false_imp, decide_eq_false_iff_not]
    refine forall₂_congr fun a _ => ?_
    tauto

theorem deleteFile_respects_iff {id : Nat} :
    Respects u s (s.deleteFile id) ↔ s.SparesOnDeleteFile u id := by
  rw [deleteFile, SparesOnDeleteFile]
  cases hfind : s.files.find id with
  | none => simpa using Respects.refl u s
  | some f =>
    simp only [Option.mem_def, Option.some.injEq, forall_eq']
    have huploads : s.uploads.Keeps (fun a => s.ForeignUpload u a.1)
        ([f].foldl (fun uploads g => deleteUpload uploads g.location) s.uploads) ↔
          ∀ g ∈ [f], s.SparesUploads u g :=
      keeps_deleteUploads
    rw [List.forall_mem_singleton] at huploads
    rw [respects_store, Table.keeps_erase, hfind]
    simpa using fun _ => huploads

theorem keeps_deleteChallenge {id : Nat} {c : Challenge X} (hfind : s.challenges.find id = some c) :
    s.challenges.Keeps (fun d => d.userId ≠ u)
        ((s.challenges.filter fun d => decide (d.id ≠ id)).modify
          (Challenge.unlink id) (Challenge.unlink_id id)) ↔
      c.userId = u ∧ ∀ d ∈ s.challenges.rows, d.userId ≠ u → d.nextId ≠ some id := by
  constructor
  · intro h
    constructor
    · by_contra hne
      obtain ⟨b, hb, rfl⟩ := Table.mem_modify.mp ((h c hne).mpr (Table.mem_of_find hfind))
      have hid : b.id = id := (Challenge.unlink_id id b).symm.trans (Table.key_of_find hfind)
      exact of_decide_eq_true (Table.mem_filter.mp hb).2 hid
    · intro d hd hne
      obtain ⟨b, -, rfl⟩ := Table.mem_modify.mp ((h d hne).mpr hd)
      exact Challenge.unlink_nextId id b
  · rintro ⟨howner, hnext⟩
    refine Table.Keeps.trans (Table.keeps_erase.mpr ?_) (Table.keeps_modify.mpr ?_)
    · intro d hd hne
      obtain rfl := Option.some.inj (hd.symm.trans hfind)
      exact hne howner
    · intro d hd hne
      rw [Challenge.unlink_userId, or_self] at hne
      exact if_neg (hnext d (Table.mem_filter.mp hd).1 hne)

theorem deleteChallenge_respects_iff {id : Nat} :
    Respects u s (s.deleteChallenge id) ↔ s.SparesOnDeleteChallenge u id := by
  rw [deleteChallenge, SparesOnDeleteChallenge]
  cases hfind : s.challenges.find id with
  | none => simpa using Respects.refl u s
  | some c =>
    simp only [Option.mem_def, Option.some.injEq, forall_eq']
    split
    · rename_i husable
      rw [forall_prop_of_true husable]
      constructor
      · intro h
        have hchallenges := (keeps_deleteChallenge hfind).mp h.challenges
        refine ⟨hchallenges.1, hchallenges.2, keeps_deleteUploads.mp h.uploads, fun hdeploy => ?_⟩
        have hsources := h.sources
        rw [if_pos hdeploy] at hsources
        exact keeps_deleteFolder.mp hsources
      · rintro ⟨howner, hnext, huploads, hfolder⟩
        have hkey : c.id = id := Table.key_of_find hfind
        -- What is deleted with the challenge is its own, and the challenge is the user's.
        have hown : ∀ owner, s.Foreign u owner → owner ≠ some id := by
          rintro owner hforeign rfl
          rw [← hkey] at hforeign hfind
          exact (foreign_iff hfind).mp hforeign howner
        constructor
        · exact (keeps_deleteChallenge hfind).mpr ⟨howner, hnext⟩
        · exact Table.keeps_filter.mpr fun f _ hf => decide_eq_true (hown _ hf)
        · exact Table.keeps_filter.mpr fun f _ hf => decide_eq_true (hown _ hf)
        · exact Table.keeps_filter.mpr fun v _ hv =>
            decide_eq_true fun heq => hown _ hv (congrArg some heq)
        · exact keeps_deleteUploads.mpr huploads
        · split
          · rename_i hdeploy
            exact keeps_deleteFolder.mpr (hfolder hdeploy)
          · exact Table.Keeps.refl _ _
    · rename_i hunusable
      simpa [hunusable] using Respects.refl u s

end Deletion

section Cascade

/-- Through the worklist of the cascade go the challenges that require one another. -/
theorem mem_dependents {challenges : List (Challenge X)} {a b : Nat} :
    b ∈ dependents challenges a ↔
      ∃ d ∈ challenges, d.id = b ∧ d.state ≠ .hidden ∧ a ∈ d.prerequisites := by
  simp only [dependents, List.mem_map, List.mem_filter, Bool.and_eq_true, decide_eq_true_eq]
  constructor
  · rintro ⟨d, ⟨hd, hstate, ha⟩, hid⟩
    exact ⟨d, hd, hid, hstate, ha⟩
  · rintro ⟨d, hd, hid, hstate, ha⟩
    exact ⟨d, ⟨hd, hstate, ha⟩, hid⟩

theorem nodup_dependents {challenges : Table (Challenge.id (X := X))} (current : Nat) :
    (dependents challenges.rows current).Nodup ∧
      dependents challenges.rows current ⊆ challenges.rows.map Challenge.id := by
  constructor
  · exact challenges.nodup.sublist (List.filter_sublist.map _)
  · exact (List.filter_sublist.map _).subset

theorem mem_cascade_seen {challenges : Table (Challenge.id (X := X))} {id a : Nat} :
    a ∈ Closure.collect (dependents challenges.rows) (challenges.rows.length + 1) [id] [id] ↔
      Relation.ReflTransGen (Closure.Step (dependents challenges.rows)) id a :=
  Closure.mem_collect challenges.nodup nodup_dependents (by rw [List.length_map]) id a

/-- The cascade changes the challenges that it comes to: they are not hidden before. -/
theorem keeps_cascade {challenges : Table (Challenge.id (X := X))} {id u : Nat} :
    challenges.Keeps (fun d => d.userId ≠ u) (cascadeHideDependents challenges id) ↔
      ∀ d ∈ challenges.rows, d.userId ≠ u → d.id ≠ id →
        ¬ Relation.ReflTransGen (Closure.Step (dependents challenges.rows)) id d.id := by
  rw [cascadeHideDependents, Table.keeps_modify]
  refine forall₂_congr fun d hd => ?_
  rw [← mem_cascade_seen]
  constructor
  · intro h hne hid hreach
    have hfixed := h (Or.inl hne)
    rw [if_pos ⟨hreach, hid⟩] at hfixed
    rcases (mem_cascade_seen.mp hreach).cases_tail with heq | ⟨a, -, hlast⟩
    · exact hid heq
    · obtain ⟨b, hb, hkey, hstate, -⟩ := mem_dependents.mp hlast
      obtain rfl := Table.eq_of_key hb hd hkey
      exact hstate (congrArg Challenge.state hfixed).symm
  · intro h hne
    refine if_neg ?_
    rintro ⟨hreach, hid⟩
    refine h ?_ hid hreach
    rcases hne with hne | hne
    · exact hne
    · rw [if_pos ⟨hreach, hid⟩] at hne
      exact hne

variable (s : Site X) (u : Nat)

/-- One challenge requires another, as the cascade from an edited challenge sees it. -/
def Site.Requires (c : Challenge X) (a b : Nat) : Prop :=
  ∃ d ∈ s.challenges.rows, d.id = b ∧ d.id ≠ c.id ∧ d.state ≠ .hidden ∧ a ∈ d.prerequisites

/-- An edit that hides a challenge comes to no challenge of another author. -/
def Site.SparesOnPatchChallenge (role : Role) (id : Nat) (body : ChallengePatch X) : Prop :=
  ∀ c ∈ s.challenges.find id, s.Patches role u body c → s.Hides u body c →
    ∀ d ∈ s.challenges.rows, d.userId ≠ u →
      ¬ Relation.ReflTransGen (s.Requires c) (patched u body c).id d.id

variable {s u} {role : Role} {body : ChallengePatch X} {c : Challenge X}

/-- The id of an edited challenge is no other one's. -/
theorem Site.Patches.ne_id (h : s.Patches role u body c) {d : Challenge X}
    (hd : d ∈ s.challenges.rows) (hne : d.id ≠ c.id) : d.id ≠ (patched u body c).id := by
  obtain ⟨-, -, -, -, -, heq | ⟨hfree, -⟩⟩ := h
  · rwa [heq]
  · rw [Option.isNone_iff_eq_none, Table.find_eq_none] at hfree
    exact hfree d hd

theorem keeps_withPatched (hc : c ∈ s.challenges.rows) (h : s.Patches role u body c) :
    s.challenges.Keeps (fun d => d.userId ≠ u) (s.withPatched u body c) := by
  refine Table.Keeps.trans (Table.keeps_erase.mpr ?_) (Table.keeps_put.mpr (Or.inr ⟨?_, ?_⟩))
  · intro d hd hne
    obtain rfl := Option.some.inj (hd.symm.trans (Table.find_key hc))
    exact hne h.2.2.1
  · exact fun hne => hne rfl
  · intro d hd
    obtain ⟨hd, hkey⟩ := Table.find_eq_some.mp hd
    obtain ⟨hd, hne⟩ := Table.mem_filter.mp hd
    exact absurd hkey (h.ne_id hd (of_decide_eq_true hne))

/-- The challenges that the cascade starts with: the edited one is hidden. -/
theorem mem_hidden_withPatched (h : s.Patches role u body c) {b : Challenge X} :
    b ∈ ((s.withPatched u body c).put { patched u body c with state := .hidden }).rows ↔
      b = { patched u body c with state := .hidden } ∨
        (b ∈ s.challenges.rows ∧ b.id ≠ c.id) := by
  rw [Table.mem_put, withPatched, Table.mem_put, Table.mem_filter, decide_eq_true_eq]
  refine or_congr_right ?_
  constructor
  · rintro ⟨rfl | ⟨hb, -⟩, hne⟩
    · exact absurd rfl hne
    · exact hb
  · rintro hb
    exact ⟨Or.inr ⟨hb, h.ne_id hb.1 hb.2⟩, h.ne_id hb.1 hb.2⟩

theorem step_dependents_iff (h : s.Patches role u body c) (a b : Nat) :
    Closure.Step
        (dependents ((s.withPatched u body c).put { patched u body c with state := .hidden }).rows)
        a b ↔ s.Requires c a b := by
  rw [Closure.Step, mem_dependents, Requires]
  constructor
  · rintro ⟨d, hd, hid, hstate, ha⟩
    rcases (mem_hidden_withPatched h).mp hd with rfl | ⟨hd, hne⟩
    · exact absurd rfl hstate
    · exact ⟨d, hd, hid, hne, hstate, ha⟩
  · rintro ⟨d, hd, hid, hne, hstate, ha⟩
    exact ⟨d, (mem_hidden_withPatched h).mpr (Or.inr ⟨hd, hne⟩), hid, hstate, ha⟩

theorem keeps_hidePatched (hc : c ∈ s.challenges.rows) (h : s.Patches role u body c) :
    s.challenges.Keeps (fun d => d.userId ≠ u)
        (hidePatched (s.withPatched u body c) (patched u body c)) ↔
      ∀ d ∈ s.challenges.rows, d.userId ≠ u →
        ¬ Relation.ReflTransGen (s.Requires c) (patched u body c).id d.id := by
  have hstep : Closure.Step (dependents
      ((s.withPatched u body c).put { patched u body c with state := .hidden }).rows) =
        s.Requires c := by
    funext a b
    exact propext (step_dependents_iff h a b)
  have hstart : s.challenges.Keeps (fun d => d.userId ≠ u)
      ((s.withPatched u body c).put { patched u body c with state := .hidden }) := by
    refine (keeps_withPatched hc h).trans (Table.keeps_put.mpr (Or.inr ⟨?_, ?_⟩))
    · exact fun hne => hne rfl
    · intro d hd hne
      have hput := hd.symm.trans ((Table.find_put _ _ _).trans (if_pos rfl))
      obtain rfl := Option.some.inj hput
      exact hne rfl
  rw [hidePatched, hstart.iff_right, keeps_cascade, hstep]
  constructor
  · intro hcascade d hd hne
    have hapart : d.id ≠ c.id := by
      intro hid
      obtain rfl := Table.eq_of_key hd hc hid
      exact hne h.2.2.1
    exact hcascade d ((hstart d hne).mpr hd) hne (h.ne_id hd hapart)
  · intro hspares d hd hne _
    exact hspares d ((hstart d hne).mp hd) hne

theorem patchChallenge_respects_iff {id : Nat} :
    Respects u s (s.patchChallenge role u id body) ↔ s.SparesOnPatchChallenge u role id body := by
  rw [patchChallenge, SparesOnPatchChallenge]
  cases hfind : s.challenges.find id with
  | none => simpa using Respects.refl u s
  | some c =>
    have hc := Table.mem_of_find hfind
    simp only [Option.mem_def, Option.some.injEq, forall_eq']
    split
    · rename_i hpatches
      rw [respects_challenges, forall_prop_of_true hpatches]
      split
      · rename_i hhides
        rw [forall_prop_of_true hhides]
        exact keeps_hidePatched hc hpatches
      · rename_i hshows
        constructor
        · intro _ hhides
          exact absurd hhides hshows
        · intro _
          exact keeps_withPatched hc hpatches
    · rename_i hrefused
      constructor
      · intro _ hpatches
        exact absurd hpatches hrefused
      · intro _
        exact Respects.refl u s

end Cascade

section Deployment

variable (s : Site X) (u : Nat)

/-- The sources of other authors' challenges in a folder are the same in an archive. -/
def Site.SameSources (tree : Table (Prod.fst : Path × X → Path)) (folder : Path) : Prop :=
  ∀ a, s.ForeignSource u a.1 → under folder a.1 = true →
    (a ∈ s.sources.rows ↔ ∃ b ∈ tree.rows, (folder ++ b.1, b.2) = a)

/-- The challenge that gets a source archive is the user's, or the upload does not come to its
row, and the archive changes nothing in another author's folder. -/
def Site.SparesOnDeploy (destination : String → Nat → Path) (c : Challenge X)
    (file : DeployFile X) : Prop :=
  let folder := destination file.name c.id
  match file.outcome with
  | .refused => True
  | .unsaved tree => s.SameSources u tree folder
  | .failed tree copied =>
    (∀ t ∈ tree, s.SameSources u t folder) ∧
      (uploadFailed (if copied then some folder else none) c = c ∨ c.userId = u)
  | .deployed tree _ _ => s.SameSources u tree folder ∧ c.userId = u

variable {s u}

theorem mem_replaceFolder {sources tree : Table (Prod.fst : Path × X → Path)} {folder : Path}
    {a : Path × X} :
    a ∈ (replaceFolder sources tree folder).rows ↔
      (a ∈ sources.rows ∧ under folder a.1 = false) ∨
        ∃ b ∈ tree.rows, (folder ++ b.1, b.2) = a := by
  simp [replaceFolder]

theorem keeps_replaceFolder {tree : Table (Prod.fst : Path × X → Path)} {folder : Path} :
    s.sources.Keeps (fun a => s.ForeignSource u a.1) (replaceFolder s.sources tree folder) ↔
      s.SameSources u tree folder := by
  refine forall₂_congr fun a _ => ?_
  rw [mem_replaceFolder]
  cases hunder : under folder a.1 with
  | true => simp [iff_comm]
  | false =>
    have hnew : ¬ ∃ b ∈ tree.rows, (folder ++ b.1, b.2) = a := by
      rintro ⟨b, -, rfl⟩
      rw [under_append] at hunder
      cases hunder
    simp [hnew]

/-- Putting another row in the place of a challenge, with its id and its author. -/
theorem keeps_put_challenge {c : Challenge X} (c' : Challenge X) (hc : c ∈ s.challenges.rows)
    (hid : c'.id = c.id) (howner : c'.userId = c.userId) :
    s.challenges.Keeps (fun d => d.userId ≠ u) (s.challenges.put c') ↔
      c' = c ∨ c.userId = u := by
  rw [Table.keeps_put, hid, Table.find_key hc, howner]
  simp [eq_comm]

theorem keeps_addVersion {c : Challenge X} (hfind : s.challenges.find c.id = some c)
    {version : X} :
    s.versions.Keeps (fun v => s.Foreign u (some v.challengeId))
        ((s.versions.modify (superseded c.id) (superseded_id c.id)).add
          (fun id => ⟨id, c.id, true, version⟩) fun _ => rfl) ↔
      c.userId = u := by
  constructor
  · intro h
    by_contra hne
    have hforeign := (foreign_iff hfind).mpr hne
    have hmem := (h _ hforeign).mp (Table.mem_add.mpr (Or.inr rfl))
    have hmodified := List.mem_map_of_mem (f := superseded c.id) hmem
    have hlt := Table.lt_nextKey (t := s.versions.modify _ (superseded_id c.id)) hmodified
    rw [superseded_id] at hlt
    exact absurd hlt (lt_irrefl _)
  · intro howner
    have hown : ¬ s.Foreign u (some c.id) := fun h => (foreign_iff hfind).mp h howner
    refine Table.Keeps.trans (Table.keeps_modify.mpr ?_) (Table.keeps_add.mpr hown)
    intro v _ hforeign
    refine if_neg fun hv => ?_
    rw [superseded, if_pos hv, or_self, hv] at hforeign
    exact hown hforeign

theorem deploy_respects_iff {destination : String → Nat → Path} {c : Challenge X}
    (hfind : s.challenges.find c.id = some c) {file : DeployFile X} :
    Respects u s (s.deploy destination c file) ↔ s.SparesOnDeploy u destination c file := by
  have hc := Table.mem_of_find hfind
  rw [deploy, SparesOnDeploy]
  cases file.outcome with
  | refused => simpa using Respects.refl u s
  | unsaved tree =>
    constructor
    · intro h
      exact keeps_replaceFolder.mp h.sources
    · intro h
      exact { Respects.refl u s with sources := keeps_replaceFolder.mpr h }
  | failed tree copied =>
    constructor
    · intro h
      refine ⟨?_, (keeps_put_challenge (uploadFailed _ c) hc rfl rfl).mp h.challenges⟩
      rintro t rfl
      exact keeps_replaceFolder.mp h.sources
    · rintro ⟨htree, hrow⟩
      refine { Respects.refl u s with
        challenges := (keeps_put_challenge (uploadFailed _ c) hc rfl rfl).mpr hrow, sources := ?_ }
      cases tree with
      | none => exact Table.Keeps.refl _ _
      | some tree => exact keeps_replaceFolder.mpr (htree tree rfl)
  | deployed tree imageLink version =>
    constructor
    · intro h
      exact ⟨keeps_replaceFolder.mp h.sources, (keeps_addVersion hfind).mp h.versions⟩
    · rintro ⟨htree, howner⟩
      exact { Respects.refl u s with
        challenges := (keeps_put_challenge (deployed imageLink _ c) hc rfl rfl).mpr (Or.inr howner)
        versions := (keeps_addVersion hfind).mpr howner
        sources := keeps_replaceFolder.mpr htree }

end Deployment

section Uploads

variable (s : Site X) (u : Nat) (collation : Collation)

/-- A file under a location takes over no file of another author's challenge, and comes into
none. -/
def Site.SparesOnCreate (form : FilesForm X) (location : Location) (file : Upload X) : Prop :=
  (s.uploads.find location = some (location, file.content) ∨ ¬ s.ForeignUpload u location) ∧
    match s.files.rows.find? fun f => sameLocation collation f.location location with
    | some f =>
      f.setattr (form.modelArgs location file) = f ∨
        (¬ s.Foreign u (f.setattr (form.modelArgs location file)).challenge_id ∧
          ¬ s.Foreign u f.challenge_id)
    | none => ¬ s.Foreign u form.target

/-- The files of a form come into no challenge of another author. -/
def Site.SparesOnCreateFiles (form : FilesForm X) : Prop :=
  s.Takes collation form →
    match form.location, form.files with
    | some location, [file] => s.SparesOnCreate u collation form location file
    | some _, _ => True
    | none, files => files ≠ [] → ¬ s.Foreign u form.target

/-- A deployment that is cleared is the user's, or there is nothing to clear. -/
def Site.SparesOnClear (c : Challenge X) : Prop :=
  (cleared c = c ∨ c.userId = u) ∧ s.SparesFolder u c.deployFile

end Uploads

section Create

variable {foreign : Option Nat → Prop} {collation : Collation} (form : FilesForm X)

theorem FileStore.create_files_of_unused {store : FileStore X} {location : Location}
    (file : Upload X)
    (h : ∀ f ∈ store.files.rows, sameLocation collation f.location location = false) :
    (store.create collation form location file).files =
      store.files.add (form.modelArgs location file).row
        (form.modelArgs location file).id_row := by
  have hnone : store.files.rows.find? (fun f => sameLocation collation f.location location) =
      none := by
    simpa using h
  exact congrArg Prod.snd (StoredFiles.recordFile_of_none (form.modelArgs location file) hnone)

theorem FileStore.Unused.create {store : FileStore X} {file : Upload X} {files : List (Upload X)}
    (h : store.Unused collation (file :: files)) :
    (store.create collation form file.place file).Unused collation files := by
  obtain ⟨hplaces, hall⟩ := h
  obtain ⟨hplace, hplaces⟩ := List.pairwise_cons.mp hplaces
  obtain ⟨hfile, hfiles⟩ := List.forall_mem_cons.mp hall
  refine ⟨hplaces, fun other hother => ?_⟩
  have happart : sameLocation collation file.place other.place = false :=
    hplace other.place (List.mem_map_of_mem hother)
  have hne : other.place ≠ file.place := by
    intro heq
    rw [heq, sameLocation, collation.refl] at happart
    cases happart
  constructor
  · exact (Table.find_put _ _ _).trans ((if_neg hne).trans (hfiles other hother).1)
  · intro f hf
    rw [create_files_of_unused form file hfile.2, Table.mem_add] at hf
    rcases hf with hf | rfl
    · exact (hfiles other hother).2 f hf
    · exact happart

/-- No file that is there goes away. -/
theorem FileStore.subset_foldl_create {files : List (Upload X)} :
    ∀ {store : FileStore X}, store.Unused collation files → store.files.rows ⊆
      (files.foldl (fun store file => store.create collation form file.place file)
        store).files.rows := by
  induction files with
  | nil => exact fun _ => List.Subset.refl _
  | cons file files ih =>
    intro store h f hf
    refine ih (h.create form) ?_
    rw [create_files_of_unused form file (List.forall_mem_cons.mp h.2).1.2]
    exact Table.mem_add.mpr (Or.inl hf)

theorem FileStore.keeps_foldl_create {files : List (Upload X)} :
    ∀ {store : FileStore X}, store.Unused collation files →
      (store.files.Keeps (fun f => foreign f.challenge_id)
          (files.foldl
            (fun store file => store.create collation form file.place file) store).files ↔
        (files ≠ [] → ¬ foreign form.target)) := by
  induction files with
  | nil =>
    intro store _
    simpa using Table.Keeps.refl _ store.files
  | cons file files ih =>
    intro store h
    have hfiles :=
      create_files_of_unused form file (List.forall_mem_cons.mp h.2).1.2
    by_cases htarget : foreign form.target
    · -- The new row stays, and it is one of the challenge that the form names.
      simp only [ne_eq, reduceCtorEq, not_false_eq_true, htarget, not_true_eq_false, imp_false,
        iff_false]
      intro hkeeps
      have hnew := subset_foldl_create form (h.create form)
        (hfiles ▸ Table.mem_add.mpr (Or.inr rfl))
      exact absurd (Table.lt_nextKey ((hkeeps _ htarget).mp hnew)) (lt_irrefl _)
    · have hfirst : store.files.Keeps (fun f => foreign f.challenge_id)
          (store.create collation form file.place file).files :=
        hfiles ▸ Table.keeps_add.mpr htarget
      rw [List.foldl_cons, hfirst.iff_right, ih (h.create form)]
      simp [htarget]

/-- An upload under a place that is not foreign changes no foreign upload. -/
theorem FileStore.keeps_foldl_uploads {foreign : Location → Prop} {files : List (Upload X)} :
    ∀ {store : FileStore X}, (∀ file ∈ files, ¬ foreign file.place) →
      store.uploads.Keeps (fun a => foreign a.1)
        (files.foldl (fun store file => store.create collation form file.place file)
          store).uploads := by
  induction files with
  | nil => exact fun _ => Table.Keeps.refl _ _
  | cons file files ih =>
    intro store h
    obtain ⟨hfile, hfiles⟩ := List.forall_mem_cons.mp h
    refine Table.Keeps.trans (Table.keeps_put.mpr (Or.inr ⟨hfile, ?_⟩)) (ih hfiles)
    intro a ha hforeign
    have hkey : a.1 = file.place := Table.key_of_find ha
    exact hfile (hkey ▸ hforeign)

end Create

section Endpoints

variable {s : Site X} {u : Nat} {collation : Collation} {form : FilesForm X}

theorem create_respects_iff {location : Location} {file : Upload X} :
    Respects u s { s with toFileStore := s.toFileStore.create collation form location file } ↔
      s.SparesOnCreate u collation form location file := by
  rw [respects_store, and_comm, SparesOnCreate]
  refine and_congr ?_ ?_
  · rw [FileStore.create, Table.keeps_put]
    refine or_congr_right (and_iff_left_of_imp ?_)
    intro hown a ha
    have hkey : a.1 = location := Table.key_of_find ha
    rwa [hkey]
  · rw [FileStore.create]
    cases hfile : s.files.rows.find? fun f => sameLocation collation f.location location with
    | none =>
      rw [StoredFiles.recordFile_of_none (form.modelArgs location file) hfile, Table.keeps_add]
      exact Iff.rfl
    | some f =>
      rw [StoredFiles.recordFile_of_some (form.modelArgs location file) hfile,
        Table.keeps_update_of_mem (List.mem_of_find?_eq_some hfile)]

/-- The uploader makes up no place that is in use. -/
theorem not_foreignUpload_of_unused {files : List (Upload X)} (h : s.Unused collation files)
    {file : Upload X} (hfile : file ∈ files) : ¬ s.ForeignUpload u file.place := by
  rintro ⟨f, hf, heq, -⟩
  have hother := (h.2 file hfile).2 f hf
  rw [heq, sameLocation, collation.refl] at hother
  cases hother

theorem createFiles_respects_iff :
    Respects u s (s.createFiles collation form) ↔ s.SparesOnCreateFiles u collation form := by
  rw [createFiles, SparesOnCreateFiles]
  split
  · rename_i htakes
    rw [forall_prop_of_true htakes]
    cases hlocation : form.location with
    | none =>
      have hunused := htakes.2 hlocation
      simp only [FileStore.createAll, hlocation]
      rw [respects_store, FileStore.keeps_foldl_create form hunused]
      refine and_iff_left (FileStore.keeps_foldl_uploads form fun file hfile => ?_)
      exact not_foreignUpload_of_unused hunused hfile
    | some location =>
      rcases hfiles : form.files with _ | ⟨file, _ | ⟨other, rest⟩⟩
      · simpa [FileStore.createAll, hlocation, hfiles] using Respects.refl u s
      · simp only [FileStore.createAll, hlocation, hfiles]
        exact create_respects_iff
      · simpa [FileStore.createAll, hlocation, hfiles] using Respects.refl u s
  · rename_i hrefused
    constructor
    · intro _ htakes
      exact absurd htakes hrefused
    · intro _
      exact Respects.refl u s

/-- Clearing the deployment of a challenge changes nothing that the files depend on. -/
theorem createFiles_clearDeployment {c : Challenge X} (hc : c ∈ s.challenges.rows) :
    (s.clearDeployment c).createFiles collation form =
      { s.clearDeployment c with toFileStore := (s.createFiles collation form).toFileStore } := by
  have hsome : ∀ id, ((s.clearDeployment c).challenges.find id).isSome =
      (s.challenges.find id).isSome := by
    intro id
    rw [clearDeployment, Table.find_put]
    split
    · rename_i hid
      rw [hid]
      exact (congrArg Option.isSome (Table.find_key hc)).symm
    · rfl
  have htakes : (s.clearDeployment c).Takes collation form ↔ s.Takes collation form := by
    refine and_congr ?_ Iff.rfl
    cases form.named with
    | none => exact Iff.rfl
    | some id => simp only [Option.bind_some, hsome]
  by_cases h : s.Takes collation form
  · rw [createFiles, createFiles, if_pos h, if_pos (htakes.mpr h)]
    rfl
  · rw [createFiles, createFiles, if_neg h, if_neg (htakes.not.mpr h)]
    rfl

theorem clearDeployment_respects_iff {c : Challenge X} (hc : c ∈ s.challenges.rows) :
    Respects u s ((s.clearDeployment c).createFiles collation form) ↔
      s.SparesOnClear u c ∧ s.SparesOnCreateFiles u collation form := by
  have hcreate : s.createFiles collation form =
      { s with toFileStore := (s.createFiles collation form).toFileStore } := by
    rw [createFiles]
    split <;> rfl
  rw [createFiles_clearDeployment hc, ← createFiles_respects_iff, hcreate, respects_store]
  constructor
  · intro h
    exact ⟨⟨(keeps_put_challenge (cleared c) hc rfl rfl).mp h.challenges,
      keeps_deleteFolder.mp h.sources⟩, h.files, h.uploads⟩
  · rintro ⟨⟨hrow, hfolder⟩, hfiles, huploads⟩
    exact {
      challenges := (keeps_put_challenge (cleared c) hc rfl rfl).mpr hrow
      flags := Table.Keeps.refl _ _
      files := hfiles
      versions := Table.Keeps.refl _ _
      uploads := huploads
      sources := keeps_deleteFolder.mpr hfolder }

end Endpoints

section Requests

variable (s : Site X) (u : Nat) (collation : Collation) (destination : String → Nat → Path)

def Site.SparesOnPostFiles (form : FilesForm X) : Prop :=
  form.accepted = true →
    match form.challengeId.bind s.challenges.find with
    | none =>
      (form.challengeId.isSome || form.deployFile.isSome || form.challengeType ||
        (form.deployField && !form.requireDeploy)) = false → s.SparesOnCreateFiles u collation form
    | some c =>
      if form.deployField && !form.requireDeploy then
        s.SparesOnClear u c ∧ s.SparesOnCreateFiles u collation form
      else
        match form.deployFile, form.requireDeploy, form.location, form.files with
        | some _, true, some _, _ :: _ :: _ => True
        | some file, true, _, _ => s.SparesOnDeploy u destination c file
        | _, _, _, _ => s.SparesOnCreateFiles u collation form

/-- A request reaches no challenge of another author. -/
def Site.Spares (role : Role) : Request X → Prop
  | .patchChallenge id body => s.SparesOnPatchChallenge u role id body
  | .deleteChallenge id => s.SparesOnDeleteChallenge u id
  | .postFiles form => s.SparesOnPostFiles u collation destination form
  | .deleteFile id => s.SparesOnDeleteFile u id
  | .postFlag body _ => s.SparesOnPostFlag u body
  | .patchFlag id body => s.SparesOnPatchFlag u id body
  | .deleteFlag id => s.SparesOnDeleteFlag u id
  | .rollback _ _ => True

variable {s u collation destination}

theorem createFiles_of_isEmpty {form : FilesForm X} (h : form.files.isEmpty = true) :
    s.createFiles collation form = s := by
  have hfiles : form.files = [] := List.isEmpty_iff.mp h
  rw [createFiles]
  split
  · cases hlocation : form.location with
    | none => simp [FileStore.createAll, hlocation, hfiles]
    | some location => simp [FileStore.createAll, hlocation, hfiles]
  · rfl

theorem postFiles_respects_iff {form : FilesForm X} :
    Respects u s (s.postFiles collation destination form) ↔
      s.SparesOnPostFiles u collation destination form := by
  rw [postFiles, SparesOnPostFiles]
  cases haccepted : form.accepted with
  | false => simpa using Respects.refl u s
  | true =>
    rw [if_neg Bool.noConfusion, forall_prop_of_true rfl]
    cases hnamed : form.challengeId.bind s.challenges.find with
    | none =>
      dsimp only
      split
      · rename_i hrefused
        simpa [hrefused] using Respects.refl u s
      · rename_i hgoes
        rw [Bool.not_eq_true] at hgoes
        rw [forall_prop_of_true hgoes, createFiles_respects_iff]
    | some c =>
      obtain ⟨id, -, hfind⟩ := Option.bind_eq_some_iff.mp hnamed
      have hc := Table.mem_of_find hfind
      dsimp only
      split
      · rw [← clearDeployment_respects_iff hc]
        split
        · rename_i hempty
          rw [createFiles_of_isEmpty hempty]
        · exact Iff.rfl
      · have hdeploy : ∀ file, Respects u s (s.deploy destination c file) ↔
            s.SparesOnDeploy u destination c file :=
          fun _ => deploy_respects_iff (Table.find_key hc)
        rcases form.deployFile with _ | file
        · exact createFiles_respects_iff
        · cases form.requireDeploy with
          | false => exact createFiles_respects_iff
          | true =>
            rcases form.location with _ | location
            · exact hdeploy file
            · rcases form.files with _ | ⟨first, _ | ⟨second, rest⟩⟩
              · exact hdeploy file
              · exact hdeploy file
              · exact iff_of_true (Respects.refl u s) trivial

/-- A request leaves the challenges of other authors as they are exactly when it reaches none of
them; no endpoint but the edit of a challenge makes sure of that. -/
theorem respects_iff (collation : Collation) (destination : String → Nat → Path) (role : Role)
    (u : Nat) (s : Site X) (request : Request X) :
    Respects u s (s.step collation destination role u request) ↔
      s.Spares u collation destination role request := by
  cases request with
  | patchChallenge id body => exact patchChallenge_respects_iff
  | deleteChallenge id => exact deleteChallenge_respects_iff
  | postFiles form => exact postFiles_respects_iff
  | deleteFile id => exact deleteFile_respects_iff
  | postFlag body content => exact postFlag_respects_iff
  | patchFlag id body => exact patchFlag_respects_iff
  | deleteFlag id => exact deleteFlag_respects_iff
  | rollback challengeId versionId => exact iff_of_true (Respects.refl u s) trivial

/-- A challenge of the user 1 and its flag. -/
def oneFlag : Site Unit where
  challenges := { rows := [{ id := 1, userId := 1, rest := () }] }
  flags := { rows := [⟨1, some 1, ()⟩] }

/-- A jury member deletes the flag of another user's challenge. -/
theorem jury_deletes_flag : ¬ ∀ (collation : Collation) (destination : String → Nat → Path)
    (role : Role) (u : Nat) (s : Site Unit) (request : Request Unit),
      Respects u s (s.step collation destination role u request) := by
  intro hall
  have hrespects := hall .ignoreCase (fun _ _ => []) .jury 2 oneFlag (.deleteFlag 1)
  have hforeign : oneFlag.Foreign 2 (some 1) := by decide
  have hkept := (hrespects.flags ⟨1, some 1, ()⟩ hforeign).mpr (by decide)
  exact absurd hkept (by decide)

end Requests

end Fctf.Authorship
