import Fctf.Scoring.Place

/-!
The freeze in the listings of solves. The scores read the freeze as seconds after 1970; the
listings hand the same number to `new DateTime`, which takes it for ticks after the year 1.
-/

namespace Fctf.Board

open Query Ranking ScoreHelper Word

namespace ScoreHelper

section Listings

variable (db : Db)

/-- `GetConfig<long>("freeze", -1)`. A number that is no `long` is not converted. -/
def freezeConfig : Int :=
  match db.freeze with
  | some freeze => if freeze ≤ 9223372036854775807 then freeze else -1
  | none => -1

/-- `new DateTime(ticks)`, which throws outside of its range. -/
def newDateTime (ticks : Int) : Option Int :=
  if 0 ≤ ticks ∧ ticks ≤ 3155378975999999999 then some ticks else none

/-- `date < dt`. A tick is a tenth of a microsecond. -/
def dateBeforeTicks (dt : Int) (date : Option Int) : Bool :=
  date.any fun date => 10 * date + 621355968000000000 < dt

/-- `OrderByDescending(s => s.IdNavigation.Date)`; null is the least date. -/
def byDateDescending (rows : List Solf) : List Solf :=
  orderBy (fun s => OrderDual.toDual (nullsFirst (solveDate db s))) rows

/-- The end of both listings; `none` is an exception. -/
def cutOff (query : List Solf) (admin : Bool) : Option (List Solf) :=
  if freezeConfig db ≠ -1 && !admin then
    (newDateTime (freezeConfig db)).map fun dt =>
      query.filter fun s => dateBeforeTicks dt (solveDate db s)
  else some query

def getUserSolves (solves : Scan db.solves) (userId : Nat) (admin : Bool) :
    Option (List Solf) :=
  cutOff db (byDateDescending db (solves.rows.filter fun s => s.userId = some userId)) admin

def getTeamSolves (solves : Scan db.solves) (teamId : Nat) (admin : Bool) :
    Option (List Solf) :=
  let teamMemberIds := memberIds db.users teamId
  if teamMemberIds.length = 0 then some []
  else cutOff db (byDateDescending db
    (solves.rows.filter fun s => s.userId.any (· ∈ teamMemberIds))) admin

end Listings

end ScoreHelper

section Property

variable (db : Db)

/-- Dated before the freeze, which lets everything pass when there is none. -/
def beforeFreeze (date : Option Int) : Bool := notFrozen (db.freeze.map unixSeconds) date

/-- What of a choice is dated before the freeze. -/
def Pick.untilFreeze (pick : Pick) : Pick where
  solves s := pick.solves s && beforeFreeze db (solveDate db s)
  awards a := pick.awards a && beforeFreeze db a.date

/-- The rest of the choice. -/
def Pick.afterFreeze (pick : Pick) : Pick where
  solves s := pick.solves s && !beforeFreeze db (solveDate db s)
  awards a := pick.awards a && !beforeFreeze db a.date

/-- All that a team's present members have. -/
def ofMembers (teamId : Nat) : Pick where
  solves s := s.userId.any (· ∈ memberIds db.users teamId)
  awards a := a.userId.any (· ∈ memberIds db.users teamId)

def ofUser (userId : Nat) : Pick where
  solves s := s.userId = some userId
  awards a := a.userId = some userId

/-- What of a choice the score counts. -/
def Pick.counted (pick : Pick) : Pick where
  solves s := pick.solves s && notFrozen (freezeOf db false) (solveDate db s)
  awards a := pick.awards a && notFrozen (freezeOf db false) a.date

/-- A listing has the account's solves until the freeze, and they make up the score together
with the awards until then. -/
def CutKept (pick : Pick) (listing : Option (List Solf)) (score : Option Int) : Prop :=
  ∃ rows, listing = some rows ∧
    rows.Perm (db.solves.filter (pick.untilFreeze db).solves) ∧
    score = some ((rows.map (solveValue db)).sum +
      ((db.awards.filter (pick.untilFreeze db).awards).map fun a => a.value.getD 0).sum)

/-- Nothing of the account lies where the moments that the freeze is taken for differ. `asked`
tells that the account has solves to be asked for. -/
structure Unaffected (pick : Pick) (asked : Prop) : Prop where
  /-- A solve before the freeze is already dated before that many ticks after the year 1. -/
  ticks : ∀ freeze ∈ db.freeze, freeze ≤ 3155378975999999999 →
    ∀ s ∈ db.solves, pick.solves s → ∀ date ∈ solveDate db s,
      date < unixSeconds freeze → 10 * date + 621355968000000000 < freeze
  /-- The number is in the range of ticks, if it is a `long` and asked for. -/
  range : ∀ freeze ∈ db.freeze, freeze ≤ 9223372036854775807 → asked → freeze ≤ 3155378975999999999
  /-- The listing knows no freeze that is no `long`. -/
  long : ∀ freeze ∈ db.freeze, 9223372036854775807 < freeze →
    ∀ s ∈ db.solves, pick.solves s → beforeFreeze db (solveDate db s)
  /-- The score knows no freeze that is no `int`: it counts what comes after as well, as far as
  an `int` can tell. -/
  int : ∀ freeze ∈ db.freeze, 2147483648 ≤ freeze → 4294967296 ∣ points db (pick.afterFreeze db)
  sums : PointsFit db (pick.counted db)
  /-- What the account has before the freeze is an `int`. -/
  total : Fits (points db (pick.untilFreeze db))

/-- The listings and the scores keep the freeze, whichever users are asked for beside. -/
def FreezeKept (solves : Scan db.solves) : Prop :=
  (∀ t ∈ db.teams, CutKept db (ofMembers db t.id) (getTeamSolves db solves t.id false)
      (getTeamScore db t.id false)) ∧
    ∀ user ∈ db.users, ∀ asked, (∀ u ∈ asked, u ∈ db.users) → user ∈ asked →
      CutKept db (ofUser user.id) (getUserSolves db solves user.id false)
        ((getUsersScore db asked false).map fun scores => scoreOf scores user.id)

end Property

section Proof

variable (db : Db)

/-- Two selections of the same rows, one of them from a list in another order. -/
theorem perm_filter_iff {α : Type} {rows table : List α} (hrows : rows.Perm table)
    (p q : α → Bool) : (rows.filter p).Perm (table.filter q) ↔ ∀ row ∈ table, p row = q row := by
  constructor
  · intro hperm row hrow
    have hmem := hperm.mem_iff (a := row)
    rw [List.mem_filter, List.mem_filter, hrows.mem_iff] at hmem
    exact Bool.eq_iff_iff.mpr (by simpa [hrow] using hmem)
  · intro hsame
    rw [← List.filter_congr hsame]
    exact hrows.filter p

theorem points_split (pick : Pick) :
    points db pick = points db (pick.untilFreeze db) + points db (pick.afterFreeze db) := by
  have hsolves := sum_filter_split (solveValue db) pick.solves
    (fun s => beforeFreeze db (solveDate db s)) db.solves
  have hawards := sum_filter_split (fun a : Award => a.value.getD 0) pick.awards
    (fun a => beforeFreeze db a.date) db.awards
  unfold points solvePoints awardPoints Pick.untilFreeze Pick.afterFreeze
  simp only
  omega

/-- What the listing lets pass for the number that is configured. -/
def shown (date : Option Int) : Bool :=
  db.freeze.all fun (freeze : Nat) =>
    freeze ≤ 9223372036854775807 → dateBeforeTicks (freeze : Int) date

theorem cutOff_eq (query : List Solf) :
    cutOff db query false =
      if ∃ freeze ∈ db.freeze, freeze ≤ 9223372036854775807 ∧ 3155378975999999999 < freeze then none
      else some (query.filter fun s => shown db (solveDate db s)) := by
  unfold cutOff freezeConfig shown
  cases db.freeze with
  | none => simp
  | some freeze =>
    by_cases hlong : freeze ≤ 9223372036854775807
    · have hne : (freeze : Int) ≠ -1 := by omega
      by_cases hrange : freeze ≤ 3155378975999999999
      · have hticks : newDateTime (freeze : Int) = some (freeze : Int) :=
          if_pos ⟨Int.natCast_nonneg _, by omega⟩
        have hin : ¬ (3155378975999999999 < freeze) := by omega
        simp [hlong, hin, hne, hticks]
      · have hticks : newDateTime (freeze : Int) = none := if_neg (by omega)
        have hout : 3155378975999999999 < freeze := by omega
        simp [hlong, hout, hne, hticks]
    · simp [hlong]

/-- When a listing of the asked solves has those until the freeze. -/
theorem listing_iff (pick : Pick) (solves : Scan db.solves) :
    (∃ rows, cutOff db (byDateDescending db (solves.rows.filter pick.solves)) false = some rows ∧
        rows.Perm (db.solves.filter (pick.untilFreeze db).solves)) ↔
      (∀ freeze ∈ db.freeze, freeze ≤ 9223372036854775807 → freeze ≤ 3155378975999999999) ∧
        ∀ s ∈ db.solves, pick.solves s →
          shown db (solveDate db s) = beforeFreeze db (solveDate db s) := by
  rw [cutOff_eq]
  by_cases hthrows :
      ∃ freeze ∈ db.freeze, freeze ≤ 9223372036854775807 ∧ 3155378975999999999 < freeze
  · rw [if_pos hthrows]
    obtain ⟨freeze, hfreeze, hlong, hrange⟩ := hthrows
    constructor
    · rintro ⟨rows, hrows, -⟩
      cases hrows
    · rintro ⟨hin, -⟩
      have hle := hin freeze hfreeze hlong
      omega
  · rw [if_neg hthrows]
    have hin : ∀ freeze ∈ db.freeze,
        freeze ≤ 9223372036854775807 → freeze ≤ 3155378975999999999 := by
      intro freeze hfreeze hlong
      by_contra hrange
      exact hthrows ⟨freeze, hfreeze, hlong, by omega⟩
    have hquery : (byDateDescending db (solves.rows.filter pick.solves)).Perm
        (db.solves.filter pick.solves) :=
      (orderBy_perm _ _).trans (solves.perm.filter _)
    have huntil : db.solves.filter (pick.untilFreeze db).solves =
        (db.solves.filter pick.solves).filter fun s => beforeFreeze db (solveDate db s) := by
      rw [List.filter_filter]
      apply List.filter_congr
      intro s _
      exact Bool.and_comm _ _
    simp only [Option.some.injEq, exists_eq_left', huntil, perm_filter_iff hquery, List.mem_filter,
      and_imp]
    exact ⟨fun h => ⟨hin, h⟩, fun h => h.2⟩

/-- Ticks after the year 1 come before as many seconds after 1970. -/
theorem before_of_dateBeforeTicks {freeze : Nat} {date : Int} (h : freeze ≤ 3155378975999999999)
    (hticks : 10 * date + 621355968000000000 < freeze) : date < unixSeconds freeze := by
  unfold unixSeconds
  omega

/-- Where the two moments tell no solve apart. -/
theorem shown_iff (pick : Pick)
    (hin : ∀ freeze ∈ db.freeze, freeze ≤ 9223372036854775807 → freeze ≤ 3155378975999999999) :
    (∀ s ∈ db.solves, pick.solves s →
        shown db (solveDate db s) = beforeFreeze db (solveDate db s)) ↔
      (∀ freeze ∈ db.freeze, freeze ≤ 3155378975999999999 →
        ∀ s ∈ db.solves, pick.solves s → ∀ date ∈ solveDate db s,
          date < unixSeconds freeze → 10 * date + 621355968000000000 < freeze) ∧
      ∀ freeze ∈ db.freeze, 9223372036854775807 < freeze →
        ∀ s ∈ db.solves, pick.solves s → beforeFreeze db (solveDate db s) := by
  unfold shown beforeFreeze notFrozen dateBeforeTicks dateBefore
  cases hfreeze : db.freeze with
  | none => simp
  | some freeze =>
    rw [hfreeze] at hin
    have hin := hin freeze rfl
    simp only [Option.all_some, Option.map_some, Option.mem_some_iff, forall_eq']
    by_cases hlong : freeze ≤ 9223372036854775807
    · have hle := hin hlong
      have hnot : ¬ (9223372036854775807 < freeze) := by omega
      simp only [hlong, hle, hnot, forall_const, false_implies, and_true]
      refine forall₃_congr fun s _ _ => ?_
      cases solveDate db s with
      | none => simp
      | some date =>
        have hbefore : 10 * date + 621355968000000000 < (freeze : Int) →
            date < unixSeconds freeze := before_of_dateBeforeTicks hle
        simp only [Option.any_some, decide_eq_decide, decide_eq_true_eq, Option.mem_some_iff,
          forall_eq']
        exact ⟨fun h => h.mpr, fun h => ⟨hbefore, h⟩⟩
    · have hbig : 9223372036854775807 < freeze := by omega
      have hnot : ¬ (freeze ≤ 3155378975999999999) := by omega
      simp only [hlong, hbig, hnot, false_implies, forall_const, true_and, decide_true]
      refine forall₃_congr fun s _ _ => ?_
      rw [eq_comm]

theorem freezeOf_some {freeze : Nat} (h : db.freeze = some freeze) :
    freezeOf db false = if freeze < 2147483648 then some (unixSeconds freeze) else none := by
  by_cases hint : freeze < 2147483648
  · have hrange : freeze ≤ maxSeconds := by
      unfold maxSeconds
      omega
    simp [freezeOf, h, Option.filter, hint, fromUnixTimeSeconds, hrange]
  · simp [freezeOf, h, Option.filter, hint]

/-- What a score counts, against what it should count. -/
theorem score_iff (pick : Pick) :
    intPoints db (pick.counted db) = points db (pick.untilFreeze db) ↔
      Fits (points db (pick.untilFreeze db)) ∧
        ∀ freeze ∈ db.freeze, 2147483648 ≤ freeze →
          4294967296 ∣ points db (pick.afterFreeze db) := by
  have hsplit := points_split db pick
  rw [intPoints, wrap_eq_iff]
  refine and_congr_right fun _ => ?_
  cases hfreeze : db.freeze with
  | none => simp [freezeOf, hfreeze, Pick.untilFreeze, Pick.counted, beforeFreeze]
  | some freeze =>
    have hsame : (fun date => beforeFreeze db date) = notFrozen (some (unixSeconds freeze)) := by
      funext date
      rw [beforeFreeze, hfreeze]
      rfl
    unfold Pick.counted
    rw [freezeOf_some db hfreeze]
    by_cases hint : freeze < 2147483648
    · have hnot : ¬ (2147483648 ≤ freeze) := by omega
      simp only [if_pos hint, ← hsame, Option.mem_some_iff, forall_eq', hnot, false_implies,
        iff_true]
      change 4294967296 ∣ points db (pick.untilFreeze db) - points db (pick.untilFreeze db)
      omega
    · have hbig : 2147483648 ≤ freeze := by omega
      simp only [if_neg hint, notFrozen, Option.all_none, Bool.and_true, Option.mem_some_iff,
        forall_eq', hbig, forall_const]
      change 4294967296 ∣ points db (pick.untilFreeze db) - points db pick ↔ _
      omega

/-- A listing that is asked for and the score of the same account. -/
theorem cutKept_iff (pick : Pick) (solves : Scan db.solves) {score : Option Int}
    (hscore : ∀ n, score = some n ↔
      PointsFit db (pick.counted db) ∧ n = intPoints db (pick.counted db)) :
    CutKept db pick (cutOff db (byDateDescending db (solves.rows.filter pick.solves)) false)
        score ↔
      Unaffected db pick True := by
  have hlisting := listing_iff db pick solves
  have hcounted := score_iff db pick
  constructor
  · rintro ⟨rows, hrows, hperm, hsum⟩
    obtain ⟨hin, hshown⟩ := hlisting.mp ⟨rows, hrows, hperm⟩
    obtain ⟨hticks, hlong⟩ := (shown_iff db pick hin).mp hshown
    rw [(hperm.map (solveValue db)).sum_eq, hscore] at hsum
    obtain ⟨hfit, hint⟩ := hcounted.mp hsum.2.symm
    exact ⟨hticks, fun freeze hfreeze hlong _ => hin freeze hfreeze hlong, hlong, hint, hsum.1,
      hfit⟩
  · rintro ⟨hticks, hrange, hlong, hint, hsums, htotal⟩
    have hin : ∀ freeze ∈ db.freeze, freeze ≤ 9223372036854775807 →
        freeze ≤ 3155378975999999999 :=
      fun freeze hfreeze hlong => hrange freeze hfreeze hlong trivial
    obtain ⟨rows, hrows, hperm⟩ := hlisting.mpr ⟨hin, (shown_iff db pick hin).mpr ⟨hticks, hlong⟩⟩
    refine ⟨rows, hrows, hperm, ?_⟩
    rw [(hperm.map (solveValue db)).sum_eq, hscore]
    exact ⟨hsums, (hcounted.mpr ⟨htotal, hint⟩).symm⟩

/-- A team that nobody is a member of has nothing that the freeze could cut. -/
theorem cutKept_of_empty {teamId : Nat} (hempty : memberIds db.users teamId = []) :
    CutKept db (ofMembers db teamId) (some []) (some 0) ∧
      Unaffected db (ofMembers db teamId) (memberIds db.users teamId ≠ []) := by
  have hno : ∀ u : Option Nat, u.any (· ∈ memberIds db.users teamId) = false := by
    intro u
    cases u <;> simp [hempty]
  have hafter : points db ((ofMembers db teamId).afterFreeze db) = 0 := by
    simp [points, solvePoints, awardPoints, Pick.afterFreeze, ofMembers, hno]
  have huntil : points db ((ofMembers db teamId).untilFreeze db) = 0 := by
    simp [points, solvePoints, awardPoints, Pick.untilFreeze, ofMembers, hno]
  have hsolves : solvePoints db ((ofMembers db teamId).counted db) = 0 := by
    simp [solvePoints, Pick.counted, ofMembers, hno]
  have hawards : awardPoints db ((ofMembers db teamId).counted db) = 0 := by
    simp [awardPoints, Pick.counted, ofMembers, hno]
  constructor
  · refine ⟨[], rfl, ?_, ?_⟩
    · simp [Pick.untilFreeze, ofMembers, hno]
    · simp [Pick.untilFreeze, ofMembers, hno]
  · refine ⟨?_, ?_, ?_, ?_, ?_, ?_⟩
    · intro freeze _ _ s _ hs
      simp [ofMembers, hno] at hs
    · intro freeze _ _ hasked
      exact absurd hempty hasked
    · intro freeze _ _ s _ hs
      simp [ofMembers, hno] at hs
    · intro freeze _ _
      rw [hafter]
      exact dvd_zero _
    · rw [PointsFit, hsolves, hawards]
      exact ⟨fits_zero, fits_zero⟩
    · rw [huntil]
      exact fits_zero

theorem team_cut_iff (solves : Scan db.solves) (teamId : Nat) :
    CutKept db (ofMembers db teamId) (getTeamSolves db solves teamId false)
        (getTeamScore db teamId false) ↔
      Unaffected db (ofMembers db teamId) (memberIds db.users teamId ≠ []) := by
  by_cases hempty : memberIds db.users teamId = []
  · obtain ⟨hkept, hunaffected⟩ := cutKept_of_empty db hempty
    have hlisting : getTeamSolves db solves teamId false = some [] := by
      simp [getTeamSolves, hempty]
    have hscore : getTeamScore db teamId false = some 0 := by simp [getTeamScore, hempty]
    rw [hlisting, hscore]
    exact iff_of_true hkept hunaffected
  · have hasked : (memberIds db.users teamId ≠ []) = True := eq_true hempty
    have hlength : ¬ (memberIds db.users teamId).length = 0 := mt List.length_eq_zero_iff.mp hempty
    rw [getTeamSolves, if_neg hlength, hasked]
    exact cutKept_iff db (ofMembers db teamId) solves (getTeamScore_eq_some_iff db teamId false)

/-- The listings and the scores keep the freeze exactly when it affects nobody. -/
theorem freeze_kept_iff (solves : Scan db.solves) :
    FreezeKept db solves ↔
      (∀ t ∈ db.teams, Unaffected db (ofMembers db t.id) (memberIds db.users t.id ≠ [])) ∧
        ∀ user ∈ db.users, Unaffected db (ofUser user.id) True := by
  apply and_congr
  · exact forall₂_congr fun t _ => team_cut_iff db solves t.id
  · constructor
    · intro hall user huser
      have hasked : ∀ u ∈ [user], u ∈ db.users := by simpa using huser
      refine (cutKept_iff db (ofUser user.id) solves fun n => ?_).mp
        (hall user huser [user] hasked List.mem_cons_self)
      rw [getUsersScore_eq_some_iff db false hasked List.mem_cons_self, List.forall_mem_singleton]
      exact Iff.rfl
    · intro hunaffected user huser asked hasked hmem
      refine (cutKept_iff db (ofUser user.id) solves fun n => ?_).mpr (hunaffected user huser)
      have hfit : ∀ u ∈ asked, PointsFit db (byUser db false u.id) :=
        fun u hu => (hunaffected u (hasked u hu)).sums
      rw [getUsersScore_eq_some_iff db false hasked hmem, and_iff_right hfit,
        and_iff_right (hunaffected user huser).sums]
      rfl

end Proof

/-- One solve of the first day of the year 2026, and a freeze ten days later. -/
def frozenContest : Db where
  freeze := some 1768089600
  teams := [{ id := 1 }]
  users := [{ id := 1, teamId := some 1 }]
  challenges := [⟨1, some 100⟩]
  submissions := [⟨1, some 1767225600000000⟩]
  solves := [⟨1, some 1, some 1, some 1⟩]
  teams_pk := memberLeft.teams_pk
  brackets_pk := memberLeft.brackets_pk
  challenges_pk := memberLeft.challenges_pk
  solves_pos := memberLeft.solves_pos
  awards_pos := memberLeft.awards_pos

/-- The team is not shown its solve, which counts in its score. -/
theorem solve_before_freeze_not_listed :
    ¬ ∀ (db : Db) (solves : Scan db.solves), FreezeKept db solves := by
  intro h
  obtain ⟨rows, hrows, hperm, -⟩ := (h frozenContest (.inOrder _)).1 { id := 1 } (by decide)
  have hlength := hperm.length_eq
  have hnone : getTeamSolves frozenContest (.inOrder _) 1 false = some [] := by decide
  rw [hnone] at hrows
  obtain rfl := Option.some.inj hrows
  revert hlength
  decide

end Fctf.Board
