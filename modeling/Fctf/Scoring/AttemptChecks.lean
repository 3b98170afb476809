import Fctf.Text

/-!
What `Attempt` of the contestant backend checks and says without asking anybody: the submission
itself, the cooldown, and the texts of its replies.
-/

namespace Fctf.AttemptChecks

/-- The text with which a trimmed submission is refused. -/
def submissionRefusal (submission : String) : Option String :=
  if submission = "" then some "Submission cannot be empty"
  else if 1000 < utf16Length submission then
    some "Submission exceeds maximum length of 1000 characters"
  else none

/-- The seconds that are left of a cooldown, by the answer of `CheckAndUpdateCooldownAsync`. -/
def remainingCooldown (cooldown : Option Int) (cooldownCheck nowSeconds : Int) : Option Int :=
  let cooldownSeconds := cooldown.getD 0
  let timeElapsed := nowSeconds - cooldownCheck
  if 0 < cooldownSeconds && 0 ≤ cooldownCheck && timeElapsed < cooldownSeconds then
    some (cooldownSeconds - timeElapsed)
  else none

/-- The message of a wrong flag with the attempts that are left. -/
def remainingMessage (message : String) (maxAttempts failsCount : Int) : String :=
  let attemptsLeft := maxAttempts - failsCount
  let triesStr := if attemptsLeft = 1 then "try" else "tries"
  let ended := message.toList.getLast?.all fun c => "!().;?[]\x7b\x7d".toList.contains c
  (if ended then message else message ++ ".") ++ " You have " ++ toString attemptsLeft ++ " " ++
    triesStr ++ " remaining."

/-! ### Texts -/

def positiveIdRequired : String := "A positive ChallengeId is required"

def userNotFound : String := "User not found"

def challengeNotFound : String := "Challenge not found"

def isPaused (ctfName : String) : String := ctfName ++ " is paused"

def teamRequired : String := "A team is required to submit challenges"

def captainOnly : String := "Only the team captain has permission to submit flags for challenges."

def pleaseWait (remainingCooldown : Int) : String :=
  "Please wait " ++ toString remainingCooldown ++ " seconds before submitting again."

def prerequisitesMissing : String :=
  "You don't have the permission to access this challenge. Complete the required challenges first."

def noTriesRemaining : String := "You have 0 tries remaining"

def scoringBusy : String := "Scoring is busy, please retry in a moment."

def scoringInvalid : String :=
  "Challenge scoring configuration is invalid. Please contact an administrator."

def notRecorded : String := "Failed to record submission. Please try again."

def tooFast (count kpmLimit : Int) : String :=
  "You're submitting flags too fast. Slow down. (" ++ toString count ++ "/" ++ toString kpmLimit ++
    " attempts in last minute)"

end Fctf.AttemptChecks
