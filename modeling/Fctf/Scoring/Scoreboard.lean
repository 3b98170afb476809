import Fctf.Scoring.ScoreHelper

/-!
The organisers' scoreboard, `get_standings` of `CTFd.utils.scores`, against the contestants'
one. Both rank an account by its ledger, the rows that count for it; the comparison is about
what each of them reads off a ledger and which accounts it lists.
-/

namespace Fctf.Board

open Query Ranking ScoreHelper Word

/-- `Solves.account_id`. -/
def solveAccount : AccountMode → Solf → Option Nat
  | .teams => Solf.teamId
  | .users => Solf.userId

/-- `Awards.account_id`. -/
def awardAccount : AccountMode → Award → Option Nat
  | .teams => Award.teamId
  | .users => Award.userId

namespace Db

variable (db : Db)

/-- `get_model`: the table of the accounts. -/
def accounts : List Account :=
  match db.userMode with
  | .teams => db.teams
  | .users => db.users.map User.toAccount

theorem accounts_pk : (db.accounts.map Account.id).Nodup := by
  unfold accounts
  cases db.userMode with
  | teams => exact db.teams_pk
  | users => simpa [Function.comp_def] using db.users_pk

end Db

namespace Scores

variable (db : Db)

/-- The solves of challenges with a value, NULL not being one. -/
def scores : List (ScoreRow (Option Nat)) :=
  (db.joinedSolves.filter fun (_, challenge, _) => challenge.value.any (· ≠ 0)).map
    fun (solve, challenge, submission) =>
      ⟨solveAccount db.userMode solve, challenge.value.getD 0, solve.id, submission.date⟩

def awards : List (ScoreRow (Option Nat)) :=
  (db.awards.filter fun award => award.value.any (· ≠ 0)).map fun award =>
    ⟨awardAccount db.userMode award, award.value.getD 0, award.id, award.date⟩

/-- `unix_time_to_utc`, which raises for what comes after the year 9999. -/
def unixTimeToUtc (t : Nat) : Option Int :=
  if t ≤ maxSeconds then some (unixSeconds t) else none

/-- What the queries are filtered by under `if not admin and freeze`. -/
def frozenAt (admin : Bool) : Option (Option Int) :=
  match db.freeze with
  | some freeze => if !admin && freeze ≠ 0 then (unixTimeToUtc freeze).map some else some none
  | none => some none

def filtered (freeze : Option Int) (rows : List (ScoreRow (Option Nat))) :
    List (ScoreRow (Option Nat)) :=
  match freeze with
  | some freeze => rows.filter fun row => dateBefore freeze row.lastDate
  | none => rows

def sumscores (freeze : Option Int) : List (ScoreRow (Option Nat)) :=
  sumScores (sumScores (filtered freeze (scores db)) ++ sumScores (filtered freeze (awards db)))

structure Standing where
  accountId : Nat
  oauthId : Option Nat
  name : Option String
  bracketId : Option Nat
  bracketName : Option String
  /-- `hidden` and `banned`, for admins. -/
  flags : Option (Option Bool × Option Bool)
  score : Int
  deriving DecidableEq, Repr

/-- A row of the query: the account, its sums if it has any, and its bracket. -/
abbrev Joined := (Account × Option (ScoreRow (Option Nat))) × Option Bracket

/-- `ORDER BY coalesce(score, 0) DESC, date ASC, id ASC`; NULLs come first. -/
def orderKey (row : Joined) : Int ×ₗ (WithBot Int ×ₗ WithBot Nat) :=
  let sums := row.1.2
  toLex (-(sums.map ScoreRow.score).getD 0,
    toLex (nullsFirst (sums.bind ScoreRow.lastDate), nullsFirst (sums.map ScoreRow.lastId)))

/-- `Model.banned == False, Model.hidden == False` for contestants, and the bracket. -/
def shown (admin : Bool) (bracketId : Option Nat) (model : Account) : Bool :=
  (admin || model.banned = some false && model.hidden = some false) &&
    bracketId.all fun id => model.bracketId = some id

def getStandings (models : Scan db.accounts) (count bracketId : Option Nat) (admin : Bool) :
    Option (List Standing) := do
  let freeze ← frozenAt db admin
  let joined : List Joined :=
    leftJoin (fun (model, _) bracket => model.bracketId = some bracket.id)
      (leftJoin (fun model sums => some model.id = sums.account) models.rows (sumscores db freeze))
      db.brackets
  let sorted := orderBy orderKey (joined.filter fun row => shown admin bracketId row.1.1)
  let standings := sorted.map fun ((model, sums), bracket) =>
    { accountId := model.id, oauthId := model.oauthId, name := model.name,
      bracketId := model.bracketId, bracketName := bracket.bind Bracket.name,
      flags := if admin then some (model.hidden, model.banned) else none,
      score := (sums.map ScoreRow.score).getD 0 : Standing }
  return match count with
  | some count => standings.take count
  | none => standings

end Scores

section Ledger

variable (db : Db) (mode : AccountMode) (admin : Bool) (account : Nat)

/-- The moment of the freeze. -/
def freezeDate : Option Int := (db.freeze.filter (0 < ·)).map unixSeconds

/-- The solves that count for an account. -/
def solveLedger : List (ScoreRow Nat) :=
  (frozen admin (freezeDate db) (solveQuery db (solveAccount mode))).filter (·.account = account)

/-- The awards that count for an account. -/
def awardLedger : List (ScoreRow Nat) :=
  (frozen admin (freezeDate db) (awardQuery db (awardAccount mode))).filter (·.account = account)

/-- What an account has in all. -/
def ledger : ScoreRow Nat :=
  aggregate account (solveLedger db mode admin account ++ awardLedger db mode admin account)

/-- The score that the contestants' scoreboard has for an account. -/
def shownScore : Int := wrap (ledger db mode admin account).score

/-- The date that the contestants' scoreboard has for an account: it has none if no award of the
account is dated, although there are awards. -/
def shownDate : Option Int :=
  if (awardLedger db mode admin account).isEmpty then (ledger db mode admin account).lastDate
  else later (maxOf ((solveLedger db mode admin account).map ScoreRow.lastDate))
    (maxOf ((awardLedger db mode admin account).map ScoreRow.lastDate))

end Ledger

section Property

variable (db : Db) (mode : AccountMode) (admin : Bool)

/-- What an account is ranked by, given its score and its last date. -/
def rankKey (score : Nat → Int) (date : Nat → Option Int) (t : Account) :
    Int ×ₗ (WithBot Int ×ₗ Nat) :=
  toLex (-score t.id, toLex (nullsFirst (date t.id), (ledger db mode admin t.id).lastId))

/-- Before another account of the same score: by the last date and the last id, or by the order
of the rows. -/
def BeforeBy (date : Nat → Option Int) (rows : List Account) (a b : Account) : Prop :=
  toLex (nullsFirst (date a.id), (ledger db mode admin a.id).lastId) <
      toLex (nullsFirst (date b.id), (ledger db mode admin b.id).lastId) ∨
    (date a.id = date b.id ∧
        (ledger db mode admin a.id).lastId = (ledger db mode admin b.id).lastId) ∧
      Before rows a b

/-- Every sum that the queries of the standings take is an `int`. -/
def SumsFit : Prop := ∀ account,
  Fits ((solveLedger db mode admin account).map ScoreRow.score).sum ∧
    Fits ((awardLedger db mode admin account).map ScoreRow.score).sum

/-- The accounts in the order in which the contestants' query reads them. -/
def contestantRows (teams : Scan db.teams) (users : Scan db.users) : List Account :=
  match db.userMode with
  | .teams => teams.rows
  | .users => users.rows.map User.toAccount

/-- Both scoreboards are shown, with the same accounts and scores in the same order. -/
def BoardsAgree (bracketId : Option Nat) (teams : Scan db.teams) (users : Scan db.users)
    (models : Scan db.accounts) : Prop :=
  ∃ list list', getStandings db teams users none bracketId admin = some list ∧
    Scores.getStandings db models none bracketId admin = some list' ∧
      list.map (fun x => (x.accountId, x.score)) = list'.map fun x => (x.accountId, x.score)

/-- The states in which both scoreboards show the same, `rows` and `rows'` being the orders in
which their queries read the accounts. -/
structure SameBoards (bracketId : Option Nat) (rows rows' : List Account) : Prop where
  /-- The freeze is no later than the year 9999. -/
  freeze : ∀ freeze ∈ db.freeze, freeze ≤ maxSeconds
  sums : SumsFit db db.userMode admin
  /-- The score of a listed account is an `int`. -/
  totals : ∀ t ∈ db.accounts, listed admin bracketId t →
    Fits (ledger db db.userMode admin t.id).score
  /-- Contestants see no account with a flag that is NULL. -/
  flags : admin = false → ∀ t ∈ db.accounts, bracketId.all (fun id => t.bracketId = some id) →
    t.hidden ≠ some true → t.banned ≠ some true → t.hidden = some false ∧ t.banned = some false
  /-- Accounts with the same score come in one order, whether or not the last date is left out
  of those whose awards have none. -/
  ties : ∀ a ∈ db.accounts, ∀ b ∈ db.accounts, listed admin bracketId a →
    listed admin bracketId b → a ≠ b →
    (ledger db db.userMode admin a.id).score = (ledger db db.userMode admin b.id).score →
      (BeforeBy db db.userMode admin (shownDate db db.userMode admin) rows a b ↔
        BeforeBy db db.userMode admin (fun id => (ledger db db.userMode admin id).lastDate)
          rows' a b)

end Property

section Proof

/-! ### Sums by account -/

section Aggregate

variable {κ : Type} (account : κ) (rows rows' : List (ScoreRow κ))

@[simp] theorem aggregate_nil : aggregate account ([] : List (ScoreRow κ)) =
    ⟨account, 0, 0, none⟩ :=
  rfl

theorem aggregate_append :
    aggregate account (rows ++ rows') =
      ⟨account, (aggregate account rows).score + (aggregate account rows').score,
        max (aggregate account rows).lastId (aggregate account rows').lastId,
        Option.merge max (aggregate account rows).lastDate (aggregate account rows').lastDate⟩ := by
  have hid : ((rows ++ rows').map ScoreRow.lastId).max?.getD 0 =
      max ((rows.map ScoreRow.lastId).max?.getD 0) ((rows'.map ScoreRow.lastId).max?.getD 0) := by
    rw [List.map_append, max?_append]
    cases (rows.map ScoreRow.lastId).max? <;> cases (rows'.map ScoreRow.lastId).max? <;> simp
  have hscore : ((rows ++ rows').map ScoreRow.score).sum =
      (rows.map ScoreRow.score).sum + (rows'.map ScoreRow.score).sum := by simp
  have hdate : maxOf ((rows ++ rows').map ScoreRow.lastDate) =
      Option.merge max (maxOf (rows.map ScoreRow.lastDate))
        (maxOf (rows'.map ScoreRow.lastDate)) := by
    rw [List.map_append, maxOf_append]
  simp only [aggregate, hid, hscore, hdate]

theorem aggregate_singleton (row : ScoreRow κ) : aggregate row.account [row] = row := by
  cases row
  simp [aggregate]

end Aggregate

section Sums

variable {κ : Type} [DecidableEq κ]

theorem sumScores_keys_nodup (rows : List (ScoreRow κ)) :
    ((sumScores rows).map ScoreRow.account).Nodup := by
  have hkeys := groupBy_keys_nodup ScoreRow.account rows
  simpa [sumScores, aggregate, Function.comp_def] using hkeys

/-- What the grouped query has for an account. -/
theorem find?_sumScores (rows : List (ScoreRow κ)) (account : κ) :
    (sumScores rows).find? (·.account = account) =
      if rows.filter (·.account = account) = [] then none
      else some (aggregate account (rows.filter (·.account = account))) :=
  find?_map_groupBy ScoreRow.account ScoreRow.account _ (fun _ => rfl) rows account

theorem filter_sumScores (rows : List (ScoreRow κ)) (account : κ) :
    (sumScores rows).filter (·.account = account) =
      if rows.filter (·.account = account) = [] then []
      else [aggregate account (rows.filter (·.account = account))] := by
  rw [filter_eq_toList (length_filter_le_one (sumScores_keys_nodup rows) account),
    find?_sumScores]
  split <;> rfl

variable (account : κ) (rows rows' : List (ScoreRow κ))

/-- Summing sums is summing the rows. -/
theorem aggregate_filter_sumScores :
    aggregate account ((sumScores rows).filter (·.account = account)) =
      aggregate account (rows.filter (·.account = account)) := by
  rw [filter_sumScores]
  split
  · simp [*]
  · exact aggregate_singleton (aggregate account _)

/-- What the union of two grouped queries, grouped again, has for an account. -/
theorem find?_sumScores_union :
    (sumScores (sumScores rows ++ sumScores rows')).find? (·.account = account) =
      if (rows ++ rows').filter (·.account = account) = [] then none
      else some (aggregate account ((rows ++ rows').filter (·.account = account))) := by
  have hempty : (sumScores rows ++ sumScores rows').filter (·.account = account) = [] ↔
      (rows ++ rows').filter (·.account = account) = [] := by
    rw [List.filter_append, List.filter_append, List.append_eq_nil_iff, List.append_eq_nil_iff,
      filter_sumScores, filter_sumScores]
    simp
  have hsum : aggregate account ((sumScores rows ++ sumScores rows').filter (·.account = account)) =
      aggregate account ((rows ++ rows').filter (·.account = account)) := by
    rw [List.filter_append, List.filter_append, aggregate_append,
      aggregate_append account (rows.filter _), aggregate_filter_sumScores,
      aggregate_filter_sumScores]
  rw [find?_sumScores, hsum]
  simp only [hempty]

end Sums

/-- The rows of a grouped query are read when every account's sum is an `int`. -/
theorem readScores_eq_some_iff (rows list : List (ScoreRow Nat)) :
    readScores (sumScores rows) = some list ↔ list = sumScores rows ∧
      ∀ account, Fits ((rows.filter (·.account = account)).map ScoreRow.score).sum := by
  have hfits : (∀ row ∈ sumScores rows, Fits row.score) ↔
      ∀ account, Fits ((rows.filter (·.account = account)).map ScoreRow.score).sum := by
    constructor
    · intro h account
      by_cases hempty : rows.filter (·.account = account) = []
      · rw [hempty]
        exact fits_zero
      · have hfind := find?_sumScores rows account
        rw [if_neg hempty] at hfind
        exact h _ (List.mem_of_find?_eq_some hfind)
    · intro h row hrow
      have hmem : row ∈ (sumScores rows).filter (·.account = row.account) :=
        List.mem_filter.mpr ⟨hrow, by simp⟩
      rw [filter_sumScores] at hmem
      split at hmem
      · cases hmem
      · rw [List.mem_singleton.mp hmem]
        exact h row.account
  rw [← hfits]
  unfold readScores
  split
  · rename_i h
    rw [and_iff_left h, Option.some_inj, eq_comm]
  · rename_i h
    exact iff_of_false (by simp) fun hread => h hread.2

/-- What the contestants' dictionary has for an account. -/
theorem scoreMap_getD (rows rows' : List (ScoreRow Nat)) (account : Nat)
    (hsolves : Fits ((rows.filter (·.account = account)).map ScoreRow.score).sum)
    (hawards : Fits ((rows'.filter (·.account = account)).map ScoreRow.score).sum) :
    (scoreMap (sumScores rows) (sumScores rows') account).getD ⟨account, 0, 0, none⟩ =
      { aggregate account ((rows ++ rows').filter (·.account = account)) with
        score := wrap (aggregate account ((rows ++ rows').filter (·.account = account))).score
        lastDate :=
          if (rows'.filter (·.account = account)).isEmpty then
            (aggregate account ((rows ++ rows').filter (·.account = account))).lastDate
          else later (maxOf ((rows.filter (·.account = account)).map ScoreRow.lastDate))
            (maxOf ((rows'.filter (·.account = account)).map ScoreRow.lastDate)) } := by
  rw [scoreMap, foldl_put (sumScores_keys_nodup rows'), foldl_put (sumScores_keys_nodup rows),
    find?_sumScores, find?_sumScores, List.filter_append, aggregate_append]
  have hzero : wrap 0 = 0 := by decide
  by_cases hnone' : rows'.filter (·.account = account) = []
  · by_cases hnone : rows.filter (·.account = account) = []
    · simp [hnone', hnone, hzero]
    · simp [hnone', hnone, aggregate, wrap_of_fits hsolves]
  · by_cases hnone : rows.filter (·.account = account) = []
    · simp [hnone', hnone, aggregate, later, wrap_of_fits hawards]
    · simp [hnone', hnone, aggregate]

/-! ### One ledger behind both -/

/-- A row of the contestants' query as the organisers' query has it. -/
def ScoreRow.lift (row : ScoreRow Nat) : ScoreRow (Option Nat) :=
  ⟨some row.account, row.score, row.lastId, row.lastDate⟩

theorem aggregate_lift (account : Nat) (rows : List (ScoreRow Nat)) :
    aggregate (some account) (rows.map ScoreRow.lift) = (aggregate account rows).lift := by
  simp [aggregate, ScoreRow.lift, Function.comp_def]

/-- Both queries take the rows with an account and a value, whether they look for the NULLs
first or last. -/
theorem filter_rows_eq {α : Type} (table : List α) (accountId : α → Option Nat)
    (value : α → Option Int) (id : α → Nat) (date : α → Option Int) (account : Nat) :
    ((table.filter fun row => (value row).any (· ≠ 0)).map fun row =>
        (⟨accountId row, (value row).getD 0, id row, date row⟩ : ScoreRow (Option Nat))).filter
        (·.account = some account) =
      ((table.filterMap fun row =>
        match accountId row with
        | some accountId =>
          if (value row).getD 0 ≠ 0 then
            some (⟨accountId, (value row).getD 0, id row, date row⟩ : ScoreRow Nat)
          else none
        | none => none).filter (·.account = account)).map ScoreRow.lift := by
  induction table with
  | nil => rfl
  | cons row table ih =>
    rw [List.filterMap_cons, List.filter_cons]
    have hvalue : (value row).any (· ≠ 0) = decide ((value row).getD 0 ≠ 0) := by
      cases value row <;> simp
    rw [hvalue]
    by_cases hzero : (value row).getD 0 ≠ 0
    · cases haccount : accountId row with
      | none => simpa [hzero, haccount] using ih
      | some accountId =>
        by_cases hsame : accountId = account
        · simpa [hzero, haccount, hsame, ScoreRow.lift] using ih
        · simpa [hzero, haccount, hsame] using ih
    · cases haccount : accountId row with
      | none => simpa [hzero] using ih
      | some accountId => simpa [hzero] using ih

section Ledgers

variable (db : Db) (admin : Bool) (account : Nat)

/-- Whether a row of that date counts. -/
def counts (date : Option Int) : Bool :=
  admin || (freezeDate db).all fun freeze => dateBefore freeze date

theorem frozen_eq (rows : List (ScoreRow Nat)) :
    frozen admin (freezeDate db) rows = rows.filter fun row => counts db admin row.lastDate := by
  unfold frozen counts
  cases freezeDate db <;> cases admin <;> simp

/-- The contestants' scoreboard converts whatever freeze is configured. -/
theorem freezeUtc_eq_some_iff (freeze : Option Int) :
    freezeUtc db = some freeze ↔
      freeze = freezeDate db ∧ ∀ seconds ∈ db.freeze, seconds ≤ maxSeconds := by
  unfold freezeUtc freezeDate fromUnixTimeSeconds
  cases db.freeze with
  | none => simp [eq_comm]
  | some seconds =>
    by_cases hpos : 0 < seconds
    · by_cases hrange : seconds ≤ maxSeconds
      · simp [hpos, hrange, Option.filter, eq_comm]
      · simp [hpos, hrange]
    · obtain rfl : seconds = 0 := by omega
      simp [Option.filter, eq_comm]

/-- What the organisers' queries are filtered by. -/
def cutAt : Option Int := if admin then none else freezeDate db

/-- The organisers' scoreboard converts the freeze for contestants only. -/
theorem frozenAt_eq (h : admin = false → ∀ seconds ∈ db.freeze, seconds ≤ maxSeconds) :
    Scores.frozenAt db admin = some (cutAt db admin) := by
  unfold Scores.frozenAt cutAt freezeDate Scores.unixTimeToUtc
  cases hfreeze : db.freeze with
  | none => simp
  | some seconds =>
    cases hadmin : admin with
    | true => simp
    | false =>
      have hrange := h hadmin seconds hfreeze
      by_cases hzero : seconds = 0
      · simp [hzero, Option.filter]
      · simp [hzero, hrange, Option.filter, Nat.pos_of_ne_zero hzero]

theorem filtered_eq (rows : List (ScoreRow (Option Nat))) :
    Scores.filtered (cutAt db admin) rows =
      rows.filter fun row => counts db admin row.lastDate := by
  unfold Scores.filtered cutAt counts
  cases admin with
  | true => simp
  | false => cases freezeDate db <;> simp

theorem filter_lift (keep : Option Int → Bool) (rows : List (ScoreRow Nat)) :
    (rows.map ScoreRow.lift).filter (fun row => keep row.lastDate) =
      (rows.filter fun row => keep row.lastDate).map ScoreRow.lift := by
  rw [List.filter_map]
  rfl

theorem filter_filtered {rows : List (ScoreRow (Option Nat))} {rows' : List (ScoreRow Nat)}
    (h : rows.filter (·.account = some account) =
      (rows'.filter (·.account = account)).map ScoreRow.lift) :
    (Scores.filtered (cutAt db admin) rows).filter (·.account = some account) =
      ((frozen admin (freezeDate db) rows').filter (·.account = account)).map ScoreRow.lift := by
  rw [filtered_eq, frozen_eq, List.filter_comm, h, filter_lift, List.filter_comm]

theorem filter_scores :
    (Scores.filtered (cutAt db admin) (Scores.scores db)).filter (·.account = some account) =
      (solveLedger db db.userMode admin account).map ScoreRow.lift := by
  apply filter_filtered
  exact filter_rows_eq db.joinedSolves (fun row => solveAccount db.userMode row.1)
    (fun row => row.2.1.value) (fun row => row.1.id) (fun row => row.2.2.date) account

theorem filter_awards :
    (Scores.filtered (cutAt db admin) (Scores.awards db)).filter (·.account = some account) =
      (awardLedger db db.userMode admin account).map ScoreRow.lift := by
  apply filter_filtered
  exact filter_rows_eq db.awards (awardAccount db.userMode) Award.value Award.id Award.date
    account

/-- What the organisers' query joins to an account. -/
theorem find?_sumscores :
    (Scores.sumscores db (cutAt db admin)).find? (some account = ·.account) =
      if solveLedger db db.userMode admin account ++ awardLedger db db.userMode admin account = []
        then none
      else some (ledger db db.userMode admin account).lift := by
  have hfind := find?_sumScores_union (some account)
    (Scores.filtered (cutAt db admin) (Scores.scores db))
    (Scores.filtered (cutAt db admin) (Scores.awards db))
  rw [List.filter_append, filter_scores, filter_awards, ← List.map_append, aggregate_lift] at hfind
  simp only [List.map_eq_nil_iff] at hfind
  rw [Scores.sumscores, ledger, ← hfind]
  congr 1
  funext row
  exact decide_eq_decide.mpr eq_comm

theorem lastId_pos (mode : AccountMode)
    (h : solveLedger db mode admin account ++ awardLedger db mode admin account ≠ []) :
    0 < (ledger db mode admin account).lastId := by
  have hpos : ∀ row ∈ solveLedger db mode admin account ++ awardLedger db mode admin account,
      0 < row.lastId := by
    intro row hrow
    rcases List.mem_append.mp hrow with hrow | hrow
    · rw [solveLedger, frozen_eq] at hrow
      have hquery := (List.mem_filter.mp (List.mem_filter.mp hrow).1).1
      obtain ⟨⟨solve, challenge, submission⟩, hjoined, heq⟩ := List.mem_filterMap.mp hquery
      have hsolve : solve ∈ db.solves := by
        obtain ⟨solve', hsolve, hrest⟩ := List.mem_flatMap.mp hjoined
        obtain ⟨challenge', -, hrest⟩ := List.mem_flatMap.mp hrest
        obtain ⟨submission', -, hrow⟩ := List.mem_map.mp hrest
        obtain rfl : solve' = solve := congrArg Prod.fst hrow
        exact hsolve
      have hid : row.lastId = solve.id := by
        simp only at heq
        split at heq
        · split at heq
          · rw [← Option.some.inj heq]
          · cases heq
        · cases heq
      rw [hid]
      exact db.solves_pos solve hsolve
    · rw [awardLedger, frozen_eq] at hrow
      have hquery := (List.mem_filter.mp (List.mem_filter.mp hrow).1).1
      obtain ⟨award, haward, heq⟩ := List.mem_filterMap.mp hquery
      have hid : row.lastId = award.id := by
        split at heq
        · split at heq
          · rw [← Option.some.inj heq]
          · cases heq
        · cases heq
      rw [hid]
      exact db.awards_pos award haward
  obtain ⟨row, hrow⟩ := List.exists_mem_of_ne_nil _ h
  have hmax : row.lastId ≤ (ledger db mode admin account).lastId := by
    unfold ledger aggregate
    exact List.le_max?_getD_of_mem (List.mem_map_of_mem hrow)
  have := hpos row hrow
  omega

end Ledgers

/-! ### The two lists -/

section Rankings

variable (db : Db) (mode : AccountMode) (admin : Bool) (bracketId : Option Nat)

/-- An account with its score. -/
def scored (score : Nat → Int) (t : Account) : Nat × Int := (t.id, score t.id)

theorem standings_eq_some {rows : List Account} {bracketName : Account → Option String}
    {list : List StandingDto}
    (h : standings db rows (solveAccount mode) (awardAccount mode) bracketName none bracketId admin
      (freezeDate db) = some list) :
    SumsFit db mode admin ∧ list.map (fun x => (x.accountId, x.score)) =
      (orderBy (rankKey db mode admin (shownScore db mode admin) (shownDate db mode admin))
        (rows.filter (listed admin bracketId))).map (scored (shownScore db mode admin)) := by
  obtain ⟨solves, hsolves, h⟩ := Option.bind_eq_some_iff.mp h
  obtain ⟨awards, hawards, h⟩ := Option.bind_eq_some_iff.mp h
  obtain ⟨rfl, hsolvesFit⟩ := (readScores_eq_some_iff _ _).mp hsolves
  obtain ⟨rfl, hawardsFit⟩ := (readScores_eq_some_iff _ _).mp hawards
  refine ⟨fun account => ⟨hsolvesFit account, hawardsFit account⟩, ?_⟩
  have hentry : ∀ account,
      (scoreMap (sumScores (frozen admin (freezeDate db) (solveQuery db (solveAccount mode))))
        (sumScores (frozen admin (freezeDate db) (awardQuery db (awardAccount mode)))) account).getD
          ⟨account, 0, 0, none⟩ =
        { ledger db mode admin account with
          score := shownScore db mode admin account
          lastDate := shownDate db mode admin account } := by
    intro account
    rw [scoreMap_getD _ _ account (hsolvesFit account) (hawardsFit account), List.filter_append]
    rfl
  obtain rfl := Option.some.inj h
  simp only
  rw [orderBy_map, List.map_map]
  simp only [hentry, Function.comp_def]
  rfl

theorem standings_isSome (rows : List Account) (bracketName : Account → Option String)
    (h : SumsFit db mode admin) :
    ∃ list, standings db rows (solveAccount mode) (awardAccount mode) bracketName none bracketId
      admin (freezeDate db) = some list := by
  have hsolves := (readScores_eq_some_iff
    (frozen admin (freezeDate db) (solveQuery db (solveAccount mode))) _).mpr
      ⟨rfl, fun account => (h account).1⟩
  have hawards := (readScores_eq_some_iff
    (frozen admin (freezeDate db) (awardQuery db (awardAccount mode))) _).mpr
      ⟨rfl, fun account => (h account).2⟩
  unfold standings
  rw [hsolves, hawards]
  exact ⟨_, rfl⟩

/-- NULL comes before every id. -/
def noneIfZero (id : Nat) : WithBot Nat := if id = 0 then ⊥ else id

theorem noneIfZero_le (m n : Nat) : noneIfZero m ≤ noneIfZero n ↔ m ≤ n := by
  unfold noneIfZero
  split <;> split
  · simp [*]
  · simp [*]
  · rename_i hm hn
    simp [hm, hn]
  · exact WithBot.coe_le_coe

/-- A row of the organisers' query, whose joins find at most one partner. -/
def joinedTo (model : Account) : Scores.Joined :=
  ((model, (Scores.sumscores db (cutAt db admin)).find? fun sums => some model.id = sums.account),
    db.brackets.find? fun bracket => model.bracketId = some bracket.id)

theorem leftJoins_eq_map (models : List Account) :
    leftJoin (fun (row : Account × Option (ScoreRow (Option Nat))) (bracket : Bracket) =>
        row.1.bracketId = some bracket.id)
      (leftJoin (fun (model : Account) sums => some model.id = sums.account) models
        (Scores.sumscores db (cutAt db admin))) db.brackets =
      models.map (joinedTo db admin) := by
  rw [leftJoin_eq_map, leftJoin_eq_map, List.map_map]
  · rfl
  · intro model _
    have hlength := length_filter_le_one
      (sumScores_keys_nodup (sumScores (Scores.filtered (cutAt db admin) (Scores.scores db)) ++
        sumScores (Scores.filtered (cutAt db admin) (Scores.awards db)))) (some model.id)
    simpa [Scores.sumscores, eq_comm] using hlength
  · intro row _
    cases hbracket : row.1.bracketId with
    | none => simp
    | some id => simpa [eq_comm] using length_filter_le_one db.brackets_pk id

/-- The organisers' query scores an account by its ledger and orders the accounts by theirs. -/
theorem orderKey_joinedTo (model : Account) :
    Scores.orderKey (joinedTo db admin model) =
      toLex (-(ledger db db.userMode admin model.id).score,
        toLex (nullsFirst (ledger db db.userMode admin model.id).lastDate,
          noneIfZero (ledger db db.userMode admin model.id).lastId)) := by
  simp only [Scores.orderKey, joinedTo, find?_sumscores]
  split
  · rename_i hempty
    simp [ledger, hempty, noneIfZero]
  · rename_i hne
    have hpos := lastId_pos db admin model.id db.userMode hne
    simp only [ScoreRow.lift, noneIfZero, if_neg hpos.ne']
    rfl

/-- The organisers' scoreboard ranks the accounts by their ledgers. -/
theorem scores_getStandings (models : Scan db.accounts)
    (h : admin = false → ∀ seconds ∈ db.freeze, seconds ≤ maxSeconds) :
    (Scores.getStandings db models none bracketId admin).map
        (List.map fun x => (x.accountId, x.score)) =
      some ((orderBy (rankKey db db.userMode admin
          (fun id => (ledger db db.userMode admin id).score)
          fun id => (ledger db db.userMode admin id).lastDate)
        (models.rows.filter (Scores.shown admin bracketId))).map
          (scored fun id => (ledger db db.userMode admin id).score)) := by
  have hkey : orderBy (fun model => Scores.orderKey (joinedTo db admin model)) =
      orderBy (rankKey db db.userMode admin (fun id => (ledger db db.userMode admin id).score)
        fun id => (ledger db db.userMode admin id).lastDate) := by
    apply orderBy_congr
    intro a b
    rw [orderKey_joinedTo, orderKey_joinedTo, rankKey, rankKey]
    simp only [Prod.Lex.toLex_le_toLex, noneIfZero_le]
  have hscore : ∀ model : Account,
      (((Scores.sumscores db (cutAt db admin)).find? fun sums => some model.id = sums.account).map
        ScoreRow.score).getD 0 = (ledger db db.userMode admin model.id).score := by
    intro model
    rw [find?_sumscores]
    split
    · simp [ledger, *]
    · rfl
  unfold Scores.getStandings
  rw [frozenAt_eq db admin h]
  simp only [Option.bind_eq_bind, Option.bind_some, Option.pure_def, Option.map_some]
  rw [leftJoins_eq_map, List.filter_map, orderBy_map, hkey, List.map_map, List.map_map]
  simp only [Function.comp_def, joinedTo, hscore]
  rfl

end Rankings

/-! ### When they agree -/

section Agreement

variable (db : Db) (admin : Bool) (bracketId : Option Nat) (teams : Scan db.teams)
  (users : Scan db.users)

theorem contestantRows_perm : (contestantRows db teams users).Perm db.accounts := by
  unfold contestantRows Db.accounts
  cases db.userMode with
  | teams => exact teams.perm
  | users => exact users.perm.map _

/-- The contestants' scoreboard is shown when its sums are `int`s, and ranks the accounts by
what is left of their scores. -/
theorem getStandings_eq_some_iff (scores : List (Nat × Int)) :
    (getStandings db teams users none bracketId admin).map
        (List.map fun x => (x.accountId, x.score)) = some scores ↔
      (∀ seconds ∈ db.freeze, seconds ≤ maxSeconds) ∧ SumsFit db db.userMode admin ∧
        scores = (orderBy (rankKey db db.userMode admin (shownScore db db.userMode admin)
            (shownDate db db.userMode admin))
          ((contestantRows db teams users).filter (listed admin bracketId))).map
            (scored (shownScore db db.userMode admin)) := by
  have hmode : ∃ bracketName, ∀ freeze,
      (match db.userMode with
        | .teams => getTeamStandings db teams none bracketId admin freeze
        | .users => getUserStandings db users none bracketId admin freeze) =
      standings db (contestantRows db teams users) (solveAccount db.userMode)
        (awardAccount db.userMode) bracketName none bracketId admin freeze := by
    unfold contestantRows solveAccount awardAccount
    cases db.userMode with
    | teams => exact ⟨_, fun _ => rfl⟩
    | users => exact ⟨_, fun _ => rfl⟩
  obtain ⟨bracketName, heq⟩ := hmode
  have hrun : getStandings db teams users none bracketId admin = (freezeUtc db).bind fun freeze =>
      standings db (contestantRows db teams users) (solveAccount db.userMode)
        (awardAccount db.userMode) bracketName none bracketId admin freeze := by
    unfold getStandings
    exact congrArg _ (funext heq)
  rw [hrun]
  constructor
  · intro h
    obtain ⟨list, hlist, rfl⟩ := Option.map_eq_some_iff.mp h
    obtain ⟨freeze, hfreeze, hlist⟩ := Option.bind_eq_some_iff.mp hlist
    obtain ⟨rfl, hrange⟩ := (freezeUtc_eq_some_iff db _).mp hfreeze
    obtain ⟨hsums, hscores⟩ := standings_eq_some db db.userMode admin bracketId hlist
    exact ⟨hrange, hsums, hscores⟩
  · rintro ⟨hrange, hsums, rfl⟩
    obtain ⟨list, hlist⟩ := standings_isSome db db.userMode admin bracketId
      (contestantRows db teams users) bracketName hsums
    rw [(freezeUtc_eq_some_iff db _).mpr ⟨rfl, hrange⟩, Option.bind_some, hlist, Option.map_some,
      (standings_eq_some db db.userMode admin bracketId hlist).2]

/-- What stands first on a scoreboard. -/
theorem before_ranked (mode : AccountMode) (score : Nat → Int) (date : Nat → Option Int)
    {rows : List Account} {p : Account → Bool} (hrows : rows.Nodup) {a b : Account}
    (ha : a ∈ rows.filter p) (hb : b ∈ rows.filter p) (hne : a ≠ b) :
    Before (orderBy (rankKey db mode admin score date) (rows.filter p)) a b ↔
      score b.id < score a.id ∨
        score a.id = score b.id ∧ BeforeBy db mode admin date rows a b := by
  rw [before_orderBy _ (hrows.filter p) ha hb hne,
    before_filter p (List.mem_filter.mp ha).2 (List.mem_filter.mp hb).2]
  have heq : rankKey db mode admin score date a = rankKey db mode admin score date b ↔
      score a.id = score b.id ∧ date a.id = date b.id ∧
        (ledger db mode admin a.id).lastId = (ledger db mode admin b.id).lastId := by
    unfold rankKey
    simp only [EmbeddingLike.apply_eq_iff_eq, Prod.mk.injEq, Int.neg_inj]
    exact Iff.rfl
  rw [heq, rankKey, rankKey, Prod.Lex.toLex_lt_toLex, BeforeBy, or_assoc]
  simp only [Int.neg_lt_neg_iff, Int.neg_inj, and_or_left, and_assoc]

/-- Accounts are told apart by their ids. -/
theorem scored_eq_iff (score score' : Nat → Int) {table l l' : List Account}
    (htable : (table.map Account.id).Nodup) (hl : ∀ t ∈ l, t ∈ table) (hl' : ∀ t ∈ l', t ∈ table) :
    l.map (scored score) = l'.map (scored score') ↔
      l = l' ∧ ∀ t ∈ l, score t.id = score' t.id := by
  constructor
  · intro h
    induction l generalizing l' with
    | nil =>
      cases l' with
      | nil => exact ⟨rfl, fun t ht => absurd ht List.not_mem_nil⟩
      | cons t' l' => cases h
    | cons t l ih =>
      cases l' with
      | nil => cases h
      | cons t' l' =>
        obtain ⟨hhead, htail⟩ := List.cons.inj h
        have hid : t.id = t'.id := congrArg Prod.fst hhead
        obtain rfl : t = t' := List.inj_on_of_nodup_map htable (hl _ (List.mem_cons_self ..))
          (hl' _ (List.mem_cons_self ..)) hid
        obtain ⟨rfl, hscores⟩ := ih (fun u hu => hl u (List.mem_cons_of_mem _ hu))
          (fun u hu => hl' u (List.mem_cons_of_mem _ hu)) htail
        exact ⟨rfl, List.forall_mem_cons.mpr ⟨congrArg Prod.snd hhead, hscores⟩⟩
  · rintro ⟨rfl, hscores⟩
    exact List.map_congr_left fun t ht => congrArg (Prod.mk t.id) (hscores t ht)

/-- Both scoreboards list the same accounts when no flag of those in question is NULL. -/
theorem listed_eq_shown (hflags : admin = false → ∀ t ∈ db.accounts,
      bracketId.all (fun id => t.bracketId = some id) → t.hidden ≠ some true →
      t.banned ≠ some true → t.hidden = some false ∧ t.banned = some false)
    {t : Account} (ht : t ∈ db.accounts) :
    listed admin bracketId t = Scores.shown admin bracketId t := by
  unfold listed Scores.shown
  cases hadmin : admin with
  | true => rfl
  | false =>
    cases hbracket : bracketId.all fun id => decide (t.bracketId = some id) with
    | false => simp
    | true =>
      have hset := hflags hadmin t ht hbracket
      clear hflags
      rcases hhidden : t.hidden with _ | _ | _ <;> rcases hbanned : t.banned with _ | _ | _ <;>
        simp_all

/-- The two rankings of the accounts that are listed, one by what is left of the scores. -/
theorem rankings_eq_iff (models : Scan db.accounts) :
    (orderBy (rankKey db db.userMode admin (shownScore db db.userMode admin)
          (shownDate db db.userMode admin))
        ((contestantRows db teams users).filter (listed admin bracketId))).map
          (scored (shownScore db db.userMode admin)) =
      (orderBy (rankKey db db.userMode admin (fun id => (ledger db db.userMode admin id).score)
          fun id => (ledger db db.userMode admin id).lastDate)
        (models.rows.filter (Scores.shown admin bracketId))).map
          (scored fun id => (ledger db db.userMode admin id).score) ↔
      (∀ t ∈ db.accounts, listed admin bracketId t →
          Fits (ledger db db.userMode admin t.id).score) ∧
        (admin = false → ∀ t ∈ db.accounts, bracketId.all (fun id => t.bracketId = some id) →
          t.hidden ≠ some true → t.banned ≠ some true →
            t.hidden = some false ∧ t.banned = some false) ∧
        ∀ a ∈ db.accounts, ∀ b ∈ db.accounts, listed admin bracketId a → listed admin bracketId b →
          a ≠ b →
          (ledger db db.userMode admin a.id).score = (ledger db db.userMode admin b.id).score →
            (BeforeBy db db.userMode admin (shownDate db db.userMode admin)
                (contestantRows db teams users) a b ↔
              BeforeBy db db.userMode admin (fun id => (ledger db db.userMode admin id).lastDate)
                models.rows a b) := by
  have hrows := contestantRows_perm db teams users
  have hnodup : (contestantRows db teams users).Nodup :=
    hrows.nodup_iff.mpr db.accounts_pk.of_map
  have hnodup' : models.rows.Nodup := models.perm.nodup_iff.mpr db.accounts_pk.of_map
  -- two listed accounts, whose scores are what is left of them
  have hbefore : ∀ a ∈ db.accounts, ∀ b ∈ db.accounts, listed admin bracketId a →
      listed admin bracketId b → a ≠ b → Fits (ledger db db.userMode admin a.id).score →
      Fits (ledger db db.userMode admin b.id).score →
      (Before (orderBy (rankKey db db.userMode admin (shownScore db db.userMode admin)
          (shownDate db db.userMode admin))
        ((contestantRows db teams users).filter (listed admin bracketId))) a b ↔
        (ledger db db.userMode admin b.id).score < (ledger db db.userMode admin a.id).score ∨
          (ledger db db.userMode admin a.id).score = (ledger db db.userMode admin b.id).score ∧
            BeforeBy db db.userMode admin (shownDate db db.userMode admin)
              (contestantRows db teams users) a b) := by
    intro a ha b hb hla hlb hne hfa hfb
    rw [before_ranked db admin db.userMode _ _ hnodup
      (List.mem_filter.mpr ⟨hrows.mem_iff.mpr ha, hla⟩)
      (List.mem_filter.mpr ⟨hrows.mem_iff.mpr hb, hlb⟩) hne, shownScore, shownScore,
      wrap_of_fits hfa, wrap_of_fits hfb]
  rw [scored_eq_iff _ _ db.accounts_pk]
  · constructor
    · rintro ⟨heq, hscores⟩
      have hsame : ∀ t ∈ db.accounts,
          listed admin bracketId t = true ↔ Scores.shown admin bracketId t = true := by
        intro t ht
        have hmem := congrArg (t ∈ ·) heq
        simpa [hrows.mem_iff, models.perm.mem_iff, ht] using hmem
      have hfits : ∀ t ∈ db.accounts, listed admin bracketId t →
          Fits (ledger db db.userMode admin t.id).score := by
        intro t ht hlisted
        have hmem := List.mem_filter.mpr ⟨hrows.mem_iff.mpr ht, hlisted⟩
        exact (wrap_eq_self_iff _).mp (hscores t ((mem_orderBy _).mpr hmem))
      refine ⟨hfits, ?_, ?_⟩
      · rintro hadmin t ht hbracket hhidden hbanned
        have hlisted : listed admin bracketId t = true := by
          unfold listed
          rcases h : t.hidden with _ | _ | _ <;> rcases h' : t.banned with _ | _ | _ <;> simp_all
        have hshown := (hsame t ht).mp hlisted
        rw [Scores.shown, hadmin] at hshown
        simp only [Bool.false_or, Bool.and_eq_true, decide_eq_true_eq] at hshown
        exact ⟨hshown.1.2, hshown.1.1⟩
      · intro a ha b hb hla hlb hne hscore
        have hab := hbefore a ha b hb hla hlb hne (hfits a ha hla) (hfits b hb hlb)
        have hab' := before_ranked db admin db.userMode
          (fun id => (ledger db db.userMode admin id).score)
          (fun id => (ledger db db.userMode admin id).lastDate) hnodup'
          (List.mem_filter.mpr ⟨models.perm.mem_iff.mpr ha, (hsame a ha).mp hla⟩)
          (List.mem_filter.mpr ⟨models.perm.mem_iff.mpr hb, (hsame b hb).mp hlb⟩) hne
        rw [heq, hab'] at hab
        simpa [hscore] using hab.symm
    · rintro ⟨hfits, hflags, hties⟩
      have hlist : (contestantRows db teams users).filter (listed admin bracketId) |>.Perm
          (models.rows.filter (Scores.shown admin bracketId)) := by
        have hfilter : models.rows.filter (Scores.shown admin bracketId) =
            models.rows.filter (listed admin bracketId) := by
          apply List.filter_congr
          intro t ht
          exact (listed_eq_shown db admin bracketId hflags (models.perm.mem_iff.mp ht)).symm
        rw [hfilter]
        exact (hrows.trans models.perm.symm).filter _
      constructor
      · rw [eq_iff_before]
        · intro a ha b hb hne
          rw [mem_orderBy] at ha hb
          obtain ⟨hra, hla⟩ := List.mem_filter.mp ha
          obtain ⟨hrb, hlb⟩ := List.mem_filter.mp hb
          have hta := hrows.mem_iff.mp hra
          have htb := hrows.mem_iff.mp hrb
          rw [hbefore a hta b htb hla hlb hne (hfits a hta hla) (hfits b htb hlb),
            before_ranked db admin db.userMode _ _ hnodup' (hlist.mem_iff.mp ha)
              (hlist.mem_iff.mp hb) hne]
          apply or_congr_right
          apply and_congr_right
          intro hscore
          exact hties a hta b htb hla hlb hne hscore
        · exact (orderBy_perm ..).nodup_iff.mpr (hnodup.filter _)
        · exact (orderBy_perm ..).trans (hlist.trans (orderBy_perm ..).symm)
      · intro t ht
        obtain ⟨ht, hlisted⟩ := List.mem_filter.mp ((mem_orderBy _).mp ht)
        exact wrap_of_fits (hfits t (hrows.mem_iff.mp ht) hlisted)
  · intro t ht
    have hmem := List.mem_of_mem_filter ((mem_orderBy _).mp ht)
    exact hrows.mem_iff.mp hmem
  · intro t ht
    have hmem := List.mem_of_mem_filter ((mem_orderBy _).mp ht)
    exact models.perm.mem_iff.mp hmem

end Agreement

end Proof

/-- A team whose `hidden` was never set. -/
def unsetFlag : Db where
  teams := [{ id := 1, hidden := none }, { id := 2 }]

end Fctf.Board
