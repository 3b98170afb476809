import Fctf.Contest.Endpoints

/-!
The topics of the contest with how far a team has got. `GetTopic` compares the number of challenges
of a category with the number that the team has solved.
-/

namespace Fctf.Contest

open Query

namespace ChallengeService

structure TopicDTO where
  topicName : String
  challengeCount : Nat
  cleared : Bool
  deriving Repr, DecidableEq

section Topics

variable (platform : Platform) (db : Db)

/-- A group of equal texts goes by the one that comes first. -/
def spelling (texts : List (Option String)) : Option String → Option String
  | none => none
  | some text => texts.reduceOption.find? (platform.collation.eq text)

/-- `GROUP BY Category`. -/
def byCategory {α : Type} (category : α → Option String) (rows : List α) :
    List (Option String × List α) :=
  groupBy (fun row => spelling platform (rows.map category) (category row)) rows

/-- The challenges that are not hidden, by their categories that are not hidden. -/
def challengeStats (challenges : Board.Scan db.challenges) :
    List (Option String × List Challenge) :=
  (byCategory platform Challenge.category
    (challenges.rows.filter fun c => !platform.collation.eq c.state "hidden")).filter
      fun stat => !isHiddenCategory platform db stat.1

/-- The solves of a team, or of those without one, with their challenges. A solve without a
challenge is not one of a hidden challenge. -/
def solvedRows (solves : Board.Scan db.board.solves) (teamId : Option Nat) :
    List (Option Challenge) :=
  (solves.rows.filter fun s => s.teamId = teamId).map (fun s => s.challengeId.bind db.challenge)
    |>.filter fun c => c.all fun c => !platform.collation.eq c.state "hidden"

def solvedStats (solves : Board.Scan db.board.solves) (teamId : Option Nat) :
    List (Option String × List (Option Challenge)) :=
  (byCategory platform (fun c => c.bind Challenge.category)
    (solvedRows platform db solves teamId)).filter fun stat => !isHiddenCategory platform db stat.1

/-- `solvedDict`, with 0 for a category that is not in it. -/
def solvedCount (stats : List (Option String × List (Option Challenge)))
    (category : Option String) : Nat :=
  ((stats.find? fun stat => stat.1 = category).map fun stat =>
    (stat.2.filterMap (Option.map Challenge.id)).dedup.length).getD 0

/-- `GetTopic`. A category that is null cannot be the key of a dictionary. -/
def getTopic (challenges : Board.Scan db.challenges) (solves : Board.Scan db.board.solves)
    (teamId : Option Nat) : Option (List TopicDTO) :=
  let stats := challengeStats platform db challenges
  let solved := solvedStats platform db solves teamId
  if solved.any (·.1.isNone) || stats.any (·.1.isNone) then none
  else some (stats.map fun stat =>
    { topicName := stat.1.getD ""
      challengeCount := stat.2.length
      cleared := stat.2.length ≤ solvedCount solved stat.1 })

end Topics

/-- All topics that the team is shown are cleared. -/
def AllCleared (platform : Platform) (db : Db) (teamId : Nat) : Prop :=
  ∀ (challenges : Board.Scan db.challenges) (solves : Board.Scan db.board.solves),
    ∃ topics, getTopic platform db challenges solves (some teamId) = some topics ∧
      ∀ topic ∈ topics, topic.cleared = true

/-- A challenge that counts for a topic on the list. -/
def counts (platform : Platform) (db : Db) (c : Challenge) : Bool :=
  !platform.collation.eq c.state "hidden" && !isHiddenCategory platform db c.category

/-- What the keys of the tables make sure of; every challenge has a category, and no two spell one
in different ways. -/
structure Orderly (platform : Platform) (db : Db) : Prop where
  challenges_pk : (db.challenges.map Challenge.id).Nodup
  board : ∀ c ∈ db.challenges, c.id ∈ db.board.challenges.map Board.Challenge.id
  solves_fk : ∀ s ∈ db.board.solves, ∃ c ∈ db.challenges, s.challengeId = some c.id
  named : ∀ c ∈ db.challenges, c.category ≠ none
  spelled : ∀ c ∈ db.challenges, ∀ d ∈ db.challenges, ∀ x ∈ c.category, ∀ y ∈ d.category,
    platform.collation.eq x y = true → x = y

section Counting

variable {platform : Platform} {db : Db} {teamId : Nat}

theorem length_le_iff_subset {α : Type} [DecidableEq α] {l l' : List α} (hl : l.Nodup)
    (hl' : l'.Nodup) (hsub : l ⊆ l') : l'.length ≤ l.length ↔ l' ⊆ l := by
  constructor
  · intro hlength
    exact ((hl.subperm hsub).perm_of_length_le hlength).symm.subset
  · intro hsub'
    exact (hl'.subperm hsub').length_le

theorem byCategory_eq {α : Type} {category : α → Option String} {rows : List α}
    (h : ∀ a ∈ rows, ∀ b ∈ rows, ∀ x ∈ category a, ∀ y ∈ category b,
      platform.collation.eq x y = true → x = y) :
    byCategory platform category rows = groupBy category rows := by
  have hkey : ∀ row ∈ rows,
      spelling platform (rows.map category) (category row) = category row := by
    intro row hrow
    cases hx : category row with
    | none => rfl
    | some x =>
      cases hfind : (rows.map category).reduceOption.find? (platform.collation.eq x) with
      | none =>
        have hmem : x ∈ (rows.map category).reduceOption :=
          List.reduceOption_mem_iff.mpr (hx ▸ List.mem_map_of_mem hrow)
        exact absurd (platform.collation.refl x) (List.find?_eq_none.mp hfind x hmem)
      | some y =>
        have hmem := List.reduceOption_mem_iff.mp (List.mem_of_find?_eq_some hfind)
        obtain ⟨other, hother, hy⟩ := List.mem_map.mp hmem
        rw [spelling, hfind, h row hrow other hother x hx y hy (List.find?_some hfind)]
  rw [byCategory, groupBy, groupBy, List.map_congr_left hkey]
  refine List.map_congr_left fun k _ => ?_
  rw [List.filter_congr fun row hrow => by rw [hkey row hrow]]

theorem challenge_of_mem (h : Orderly platform db) {c : Challenge} (hc : c ∈ db.challenges) :
    db.challenge c.id = some c :=
  find?_eq_of_unique h.challenges_pk hc rfl

theorem solved_iff (h : Orderly platform db) {c : Challenge} (hc : c ∈ db.challenges) :
    solved db (some teamId) c.id = true ↔
      ∃ s ∈ db.board.solves, s.teamId = some teamId ∧ s.challengeId.bind db.challenge = some c := by
  simp only [solved, List.any_eq_true, Bool.and_eq_true, decide_eq_true_eq]
  constructor
  · rintro ⟨s, hs, hteam, hid⟩
    refine ⟨s, hs, hteam, ?_⟩
    cases hsome : s.challengeId with
    | none =>
      rw [hsome] at hid
      cases hid
    | some id =>
      rw [hsome] at hid
      obtain rfl : id = c.id := Int.ofNat_inj.mp (of_decide_eq_true hid)
      exact challenge_of_mem h hc
  · rintro ⟨s, hs, hteam, hbind⟩
    obtain ⟨id, hid, hfind⟩ := Option.bind_eq_some_iff.mp hbind
    obtain rfl : c.id = id := challenge_id hfind
    refine ⟨s, hs, hteam, ?_⟩
    rw [hid]
    exact decide_eq_true rfl

theorem mem_solvedRows (h : Orderly platform db) (solves : Board.Scan db.board.solves)
    {row : Option Challenge} : row ∈ solvedRows platform db solves (some teamId) ↔
      ∃ c ∈ db.challenges, row = some c ∧ platform.collation.eq c.state "hidden" = false ∧
        solved db (some teamId) c.id = true := by
  simp only [solvedRows, List.mem_filter, List.mem_map, decide_eq_true_eq]
  constructor
  · rintro ⟨⟨s, ⟨hs, hteam⟩, rfl⟩, hstate⟩
    have hmem := solves.perm.subset hs
    obtain ⟨c, hc, hid⟩ := h.solves_fk s hmem
    have hrow : s.challengeId.bind db.challenge = some c := by
      rw [hid]
      exact challenge_of_mem h hc
    rw [hrow] at hstate ⊢
    exact ⟨c, hc, rfl, by simpa using hstate, (solved_iff h hc).mpr ⟨s, hmem, hteam, hrow⟩⟩
  · rintro ⟨c, hc, rfl, hstate, hsolved⟩
    obtain ⟨s, hs, hteam, hrow⟩ := (solved_iff h hc).mp hsolved
    exact ⟨⟨s, ⟨solves.perm.symm.subset hs, hteam⟩, hrow⟩, by simpa using hstate⟩

theorem mem_challengeStats (h : Orderly platform db) (challenges : Board.Scan db.challenges)
    {stat : Option String × List Challenge} : stat ∈ challengeStats platform db challenges ↔
      stat.2 = (challenges.rows.filter fun c => !platform.collation.eq c.state "hidden").filter
        (fun c => c.category = stat.1) ∧ stat.2 ≠ [] ∧
          isHiddenCategory platform db stat.1 = false := by
  have hspelled : ∀ a ∈ challenges.rows.filter (fun c => !platform.collation.eq c.state "hidden"),
      ∀ b ∈ challenges.rows.filter (fun c => !platform.collation.eq c.state "hidden"),
      ∀ x ∈ a.category, ∀ y ∈ b.category, platform.collation.eq x y = true → x = y := by
    intro a ha b hb
    exact h.spelled a (challenges.perm.subset (List.mem_of_mem_filter ha)) b
      (challenges.perm.subset (List.mem_of_mem_filter hb))
  rw [challengeStats, byCategory_eq hspelled, List.mem_filter, mem_groupBy]
  constructor
  · rintro ⟨⟨hgroup, hne⟩, hhidden⟩
    exact ⟨hgroup, hgroup ▸ hne, by simpa using hhidden⟩
  · rintro ⟨hgroup, hne, hhidden⟩
    exact ⟨⟨hgroup, hgroup ▸ hne⟩, by simpa using hhidden⟩

theorem solvedStats_eq (h : Orderly platform db) (solves : Board.Scan db.board.solves) :
    solvedStats platform db solves (some teamId) =
      (groupBy (fun c => c.bind Challenge.category)
        (solvedRows platform db solves (some teamId))).filter
          fun stat => !isHiddenCategory platform db stat.1 := by
  rw [solvedStats, byCategory_eq]
  intro a ha b hb x hx y hy
  obtain ⟨c, hc, rfl, _⟩ := (mem_solvedRows h solves).mp ha
  obtain ⟨d, hd, rfl, _⟩ := (mem_solvedRows h solves).mp hb
  exact h.spelled c hc d hd x hx y hy

/-- The count of a topic is that of its solved challenges. -/
theorem solvedCount_eq (h : Orderly platform db) (solves : Board.Scan db.board.solves)
    {category : Option String} (hcategory : isHiddenCategory platform db category = false) :
    solvedCount (solvedStats platform db solves (some teamId)) category =
      (((solvedRows platform db solves (some teamId)).filter fun c =>
        c.bind Challenge.category = category).filterMap
          (Option.map Challenge.id)).dedup.length := by
  rw [solvedStats_eq h, solvedCount]
  generalize solvedRows platform db solves (some teamId) = rows
  have hkeys : (((groupBy (fun c => c.bind Challenge.category) rows).filter fun stat =>
      !isHiddenCategory platform db stat.1).map (·.1)).Nodup :=
    (groupBy_keys_nodup _ rows).sublist (List.Sublist.map _ List.filter_sublist)
  by_cases hempty : rows.filter (fun c => c.bind Challenge.category = category) = []
  · rw [hempty, List.find?_eq_none.mpr]
    · rfl
    · intro stat hstat hkey
      have hgroup := ((mem_groupBy _).mp (List.mem_of_mem_filter hstat)).2
      rw [of_decide_eq_true hkey] at hgroup
      exact hgroup hempty
  · have hgroup : (category, rows.filter fun c => c.bind Challenge.category = category) ∈
        groupBy (fun c : Option Challenge => c.bind Challenge.category) rows :=
      (mem_groupBy _).mpr ⟨rfl, hempty⟩
    have hshown : (!isHiddenCategory platform db category) = true := by
      rw [hcategory]
      rfl
    rw [find?_eq_of_unique hkeys (List.mem_filter.mpr ⟨hgroup, hshown⟩) rfl]
    rfl

/-- A topic is cleared when all that counts for it is solved. -/
theorem cleared_topic_iff (h : Orderly platform db) (challenges : Board.Scan db.challenges)
    (solves : Board.Scan db.board.solves) {stat : Option String × List Challenge}
    (hstat : stat ∈ challengeStats platform db challenges) :
    stat.2.length ≤ solvedCount (solvedStats platform db solves (some teamId)) stat.1 ↔
      ∀ c ∈ stat.2, solved db (some teamId) c.id = true := by
  obtain ⟨hgroup, -, hhidden⟩ := (mem_challengeStats h challenges).mp hstat
  have hmem : ∀ c, c ∈ stat.2 ↔ c ∈ db.challenges ∧ platform.collation.eq c.state "hidden" = false ∧
      c.category = stat.1 := by
    intro c
    rw [hgroup]
    simp only [List.mem_filter, challenges.perm.mem_iff, decide_eq_true_eq, Bool.not_eq_true',
      and_assoc]
  have hnodup : (stat.2.map Challenge.id).Nodup := by
    rw [hgroup]
    exact ((challenges.perm.map Challenge.id).nodup_iff.mpr h.challenges_pk).sublist
      (List.Sublist.map _ (List.filter_sublist.trans List.filter_sublist))
  have hids : ∀ id, id ∈ (((solvedRows platform db solves (some teamId)).filter fun c =>
      c.bind Challenge.category = stat.1).filterMap (Option.map Challenge.id)).dedup ↔
        ∃ c ∈ stat.2, c.id = id ∧ solved db (some teamId) c.id = true := by
    intro id
    simp only [List.mem_dedup, List.mem_filterMap, List.mem_filter, mem_solvedRows h, hmem,
      decide_eq_true_eq]
    constructor
    · rintro ⟨row, ⟨⟨c, hc, rfl, hstate, hsolved⟩, hcategory⟩, hid⟩
      exact ⟨c, ⟨hc, hstate, hcategory⟩, Option.some.inj hid, hsolved⟩
    · rintro ⟨c, ⟨hc, hstate, hcategory⟩, rfl, hsolved⟩
      exact ⟨some c, ⟨⟨c, hc, rfl, hstate, hsolved⟩, hcategory⟩, rfl⟩
  rw [solvedCount_eq h solves hhidden, ← List.length_map (f := Challenge.id),
    length_le_iff_subset (List.nodup_dedup _) hnodup]
  · constructor
    · intro hsub c hc
      obtain ⟨d, hd, hid, hsolved⟩ := (hids c.id).mp (hsub (List.mem_map_of_mem hc))
      rw [← hid]
      exact hsolved
    · intro hall id hid
      obtain ⟨c, hc, rfl⟩ := List.mem_map.mp hid
      exact (hids c.id).mpr ⟨c, hc, rfl, hall c hc⟩
  · intro id hid
    obtain ⟨c, hc, rfl, -⟩ := (hids id).mp hid
    exact List.mem_map_of_mem hc

theorem allCleared_iff (h : Orderly platform db) : AllCleared platform db teamId ↔
    ∀ c ∈ db.challenges, counts platform db c = true → solved db (some teamId) c.id = true := by
  have hstats : ∀ challenges : Board.Scan db.challenges,
      (challengeStats platform db challenges).any (·.1.isNone) = false := by
    intro challenges
    rw [List.any_eq_false]
    intro stat hstat hnone
    obtain ⟨hgroup, hne, -⟩ := (mem_challengeStats h challenges).mp hstat
    obtain ⟨c, hc⟩ := List.exists_mem_of_ne_nil _ hne
    rw [hgroup] at hc
    obtain ⟨hc, hcategory⟩ := List.mem_filter.mp hc
    have hmem := challenges.perm.subset (List.mem_of_mem_filter hc)
    exact h.named c hmem ((of_decide_eq_true hcategory).trans (Option.isNone_iff_eq_none.mp hnone))
  have hsolved : ∀ solves : Board.Scan db.board.solves,
      (solvedStats platform db solves (some teamId)).any (·.1.isNone) = false := by
    intro solves
    rw [List.any_eq_false, solvedStats_eq h]
    intro stat hstat hnone
    obtain ⟨hgroup, hne⟩ := (mem_groupBy _).mp (List.mem_of_mem_filter hstat)
    obtain ⟨row, hrow⟩ := List.exists_mem_of_ne_nil _ hne
    obtain ⟨hrow, hcategory⟩ := List.mem_filter.mp hrow
    obtain ⟨c, hc, rfl, -⟩ := (mem_solvedRows h solves).mp hrow
    exact h.named c hc ((of_decide_eq_true hcategory).trans (Option.isNone_iff_eq_none.mp hnone))
  have htopics : ∀ challenges solves, getTopic platform db challenges solves (some teamId) =
      some ((challengeStats platform db challenges).map fun stat =>
        { topicName := stat.1.getD ""
          challengeCount := stat.2.length
          cleared := stat.2.length ≤
            solvedCount (solvedStats platform db solves (some teamId)) stat.1 }) := by
    intro challenges solves
    simp only [getTopic, hstats, hsolved, Bool.or_self, Bool.false_eq_true, if_false]
  constructor
  · intro hcleared c hc hcounts
    obtain ⟨topics, hsome, hall⟩ := hcleared (.inOrder _) (.inOrder _)
    rw [htopics] at hsome
    obtain rfl := Option.some.inj hsome
    simp only [counts, Bool.and_eq_true, Bool.not_eq_true'] at hcounts
    have hmem : c ∈ (db.challenges.filter fun c => !platform.collation.eq c.state "hidden").filter
        fun d => d.category = c.category := by
      simp [hc, hcounts.1]
    have hstat : (c.category, _) ∈ challengeStats platform db (.inOrder db.challenges) :=
      (mem_challengeStats h (.inOrder _)).mpr ⟨rfl, List.ne_nil_of_mem hmem, hcounts.2⟩
    have htopic := hall _ (List.mem_map_of_mem hstat)
    exact (cleared_topic_iff h _ _ hstat).mp (of_decide_eq_true htopic) c hmem
  · intro hall challenges solves
    refine ⟨_, htopics challenges solves, ?_⟩
    intro topic htopic
    obtain ⟨stat, hstat, rfl⟩ := List.mem_map.mp htopic
    refine decide_eq_true ((cleared_topic_iff h challenges solves hstat).mpr ?_)
    obtain ⟨hgroup, -, hhidden⟩ := (mem_challengeStats h challenges).mp hstat
    intro c hc
    rw [hgroup] at hc
    obtain ⟨hc, hcategory⟩ := List.mem_filter.mp hc
    obtain ⟨hc, hstate⟩ := List.mem_filter.mp hc
    refine hall c (challenges.perm.subset hc) ?_
    rw [counts, hstate, of_decide_eq_true hcategory, hhidden]
    rfl

end Counting

end ChallengeService

end Fctf.Contest
