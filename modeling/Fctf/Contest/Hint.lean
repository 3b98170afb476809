import Fctf.Contest.Data

/-!
`HintService`: reading a hint, and the checks that unlocking one makes.
-/

namespace Fctf.Contest

open Board

/-- The exceptions that `GlobalExceptionFilter` tells apart. -/
inductive Fault
  | invalidOperation (message : String)
  | unauthorizedAccess (message : String)
  | keyNotFound (message : String)
  | other
  deriving Repr, DecidableEq

namespace HintService

variable (platform : Platform) (db : Db)

/-- `HintUnlockType`. -/
def hintUnlockType : String := "hints"

/-- `u.Type == type` as SQL has it. -/
def sameType (u : Unlock) (type : String) : Bool := u.type.any (platform.collation.eq · type)

/-- `u.Type == HintUnlockType || u.Type == null`. -/
def isHintUnlock (u : Unlock) : Bool := sameType platform u hintUnlockType || u.type.isNone

/-- Whose row it is: the team's in team mode, the user's otherwise. -/
def ownedBy (user : Board.User) (teamId userId : Option Nat) : Bool :=
  match db.board.userMode with
  | .teams => teamId = user.teamId
  | .users => userId = some user.id

/-- The integers up to the first item that is no number. -/
def takeInts : List JsonElement → List Int
  | [] => []
  | item :: items =>
    if item.isNumber then item.getInt32.toList ++ takeInts items else []

/-- `GetPrerequisites`. -/
def getPrerequisites (requirements : Option String) : List Int :=
  match requirements with
  | none => []
  | some text =>
    if isNullOrWhiteSpace text then []
    else
      match (platform.parse text).bind (·.tryGetProperty "prerequisites") with
      | some (some (.array items)) => takeInts items
      | _ => []

/-- The message of `EnsureChallengePrerequisitesUnlockedAsync`. -/
def challengeLocked : String :=
  "You don't have the permission to unlock hints for this challenge. " ++
    "Complete the required challenges first."

/-- `EnsureChallengePrerequisitesUnlockedAsync`. -/
def ensureChallengePrerequisitesUnlocked (challenge : Challenge) (user : Board.User) :
    Except Fault Unit :=
  match challenge.requirements with
  | none => .ok ()
  | some requirements =>
    if isNullOrWhiteSpace requirements then .ok ()
    else
      match platform.deserialize requirements with
      -- the exception is logged, and the check is over
      | none => .ok ()
      | some requirementsObj =>
        let prerequisites := (requirementsObj.bind (·.prerequisites)).getD []
        let validPrerequisites :=
          prerequisites.filter fun id => db.challenges.any fun c => (c.id : Int) = id
        if validPrerequisites.isEmpty then .ok ()
        else if db.board.userMode = .teams && user.teamId.isNone then
          .error (.invalidOperation "User team not found")
        else if validPrerequisites.all fun id => db.board.solves.any fun s =>
            ownedBy db user s.teamId s.userId &&
              s.challengeId.any fun solved => (solved : Int) = id then .ok ()
        else .error (.invalidOperation challengeLocked)

/-- The check of the prerequisites of the hint itself. -/
def ensureHintPrerequisitesUnlocked (hint : Hint) (user : Board.User) : Except Fault Unit :=
  let prerequisites := getPrerequisites platform hint.requirements
  if prerequisites.isEmpty then .ok ()
  else if db.board.userMode = .teams && user.teamId.isNone then
    .error (.invalidOperation "User team not found")
  else
    let allUnlocks := db.unlocks.filter fun u =>
      sameType platform u hintUnlockType && ownedBy db user u.teamId u.userId
    let unlockIds := allUnlocks.filterMap Unlock.target ++
      (db.hints.filter fun h => h.cost = none || h.cost = some 0).map Hint.id
    if (prerequisites.filter fun id => db.hints.any fun h => (h.id : Int) = id).all
        fun id => unlockIds.any fun unlocked => (unlocked : Int) = id then .ok ()
    else .error (.invalidOperation "You must unlock other hints before accessing this hint")

/-- The look for an earlier unlock of the hint. -/
def existing (target : Nat) (type : String) (user : Board.User) : Option Unlock :=
  db.unlocks.find? fun u =>
    u.target = some target && sameType platform u type && ownedBy db user u.teamId u.userId

/-- The check of the cost against the score. -/
def ensureAffordable (hint : Hint) (user : Board.User) : Except Fault Unit :=
  match db.teamOf user with
  | none => .error (.invalidOperation "User team not found")
  | some team =>
    match ScoreHelper.getTeamScore db.board team.id true with
    | none => .error .other
    | some score =>
      if hint.cost.any (score < ·) then
        .error (.invalidOperation "Not enough points to unlock this hint")
      else .ok ()

/-- The checks of `UnlockHint` after that of the challenge's prerequisites. -/
def ensureUnlockable (hint : Hint) (type : String) (user : Board.User) : Except Fault Unit := do
  ensureHintPrerequisitesUnlocked platform db hint user
  if (existing platform db hint.id type user).isSome then
    throw (.invalidOperation "Already unlocked")
  ensureAffordable db hint user

/-- The length of `unlocks.type`. -/
def unlockTypeLength : Nat := 32

/-- A text as a column of a length keeps it: what is too much is cut off if it is blank. -/
def storeText (length : Nat) (text : String) : Option String :=
  if (text.toList.drop length).all (· = ' ') then some (String.ofList (text.toList.take length))
  else none

/-- An id that the table has not given yet. -/
def freshId (ids : List Nat) : Nat := ids.foldr max 0 + 1

def hintUnlock (user : Board.User) (hint : Hint) (type : String) : Unlock where
  id := freshId (db.unlocks.map Unlock.id)
  userId := some user.id
  teamId := user.teamId
  target := some hint.id
  type := some type

/-- The row of an unlock as the table takes it: `unlocks_unique` holds a team to one for a hint. -/
def storedUnlock (user : Board.User) (hint : Hint) (type : String) : Option Unlock := do
  let row := hintUnlock db user hint (← storeText unlockTypeLength type)
  if db.unlocks.any fun u => u.teamId.isSome && u.teamId = row.teamId && u.target = row.target then
    none
  else some row

/-- The award of an unlock. -/
def hintAward (now : Int) (user : Board.User) (hint : Hint) : Board.Award where
  id := freshId (db.board.awards.map Board.Award.id)
  userId := some user.id
  teamId := user.teamId
  value := some (Word.wrap (-hint.cost.getD 0))
  date := some (now * 1000000)

structure HintResponseDTO where
  id : Nat
  type : Option String
  challengeId : Option Nat
  cost : Option Int
  content : Option String := none
  html : Option String := none
  requirements : Option String := none
  view : String
  deriving Repr, DecidableEq

/-- The challenge is `visible` and its category is not hidden. -/
def isVisible (challenge : Challenge) : Bool :=
  challenge.state = "visible" && !isHiddenCategory platform db challenge.category

/-- The look for the unlock that `GetHintById` makes. -/
def unlocked (hint : Hint) (user : Board.User) : Bool :=
  !(db.board.userMode = .teams && user.teamId.isNone) &&
    db.unlocks.any fun u =>
      ownedBy db user u.teamId u.userId && u.target = some hint.id && isHintUnlock platform u

def getHintById (id userId : Nat) : Option HintResponseDTO := do
  let hint ← db.hint id
  let challenge ← db.challengeOf hint
  if isVisible platform db challenge then
    let hasCost : Bool := 0 < hint.cost.getD 0
    match db.user userId with
    | none =>
      if hasCost then
        some { id := hint.id, type := hint.type, challengeId := hint.challengeId, cost := hint.cost,
               view := "locked" }
      else some (answer hint "unlocked")
    | some user =>
      some (answer hint
        (if hasCost && !unlocked platform db hint user then "locked" else "unlocked"))
  else none
where
  answer (hint : Hint) (view : String) : HintResponseDTO :=
    { id := hint.id, type := hint.type, challengeId := hint.challengeId, cost := hint.cost,
      content := if view = "locked" then none else hint.content,
      html := if view = "locked" then none
        else hint.content.map fun content => "<p>" ++ content ++ "</p>\n",
      requirements := hint.requirements, view := view }

/-- The checks of `PostUnlock` and `UnlockHint` before the lock is asked for. -/
def unlockTarget (user : Board.User) (target : Nat) : Option Hint := do
  let hint ← db.hint target
  let challenge ← db.challengeOf hint
  if challenge.state = "hidden" || isHiddenCategory platform db challenge.category then none
  else if db.board.solves.any fun s =>
      s.challengeId = some challenge.id && s.teamId = user.teamId then none
  else if isVisible platform db challenge then some hint
  else none

end HintService

end Fctf.Contest
