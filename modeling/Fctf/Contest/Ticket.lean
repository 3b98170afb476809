import Fctf.Lib.EditDistance
import Fctf.Lib.Grid
import Fctf.Text
import Mathlib.Algebra.Order.Field.Rat
import Mathlib.Tactic.FieldSimp
import Mathlib.Tactic.Linarith
import Mathlib.Tactic.NormNum

/-!
`TicketService`: a contestant's new ticket is refused when it is similar to one of their earlier
tickets.
-/

namespace Fctf.TicketService

open EditDistance

/-- A `string`, by its units of UTF-16. -/
abbrev Units := List UInt16

def utf16 (text : String) : Units :=
  text.toList.flatMap fun c =>
    let n := c.toNat
    if n < 0x10000 then [UInt16.ofNat n]
    else
      let low := n - 0x10000
      [UInt16.ofNat (0xD800 + low / 0x400), UInt16.ofNat (0xDC00 + low % 0x400)]

/-! ### The similarity -/

/-- A cell of the table; `s[i - 1]` and `t[j - 1]` are inside the strings. -/
def cell (s t : Units) (d : Grid.Table ℕ) (i j : ℕ) : ℕ :=
  let cost := if s[i - 1]? = t[j - 1]? then 0 else 1
  min (min (d (i - 1) j + 1) (d i (j - 1) + 1)) (d (i - 1) (j - 1) + cost)

def levenshteinDistance (s t : Units) : ℕ :=
  let d : Grid.Table ℕ := fun _ _ => 0
  let d := Grid.loop 0 s.length (fun i d => Grid.set d i 0 i) d
  let d := Grid.loop 0 t.length (fun j d => Grid.set d 0 j j) d
  let d := Grid.fill (cell s t) s.length t.length d
  d s.length t.length

def stringSimilarity (s1 s2 : Option Units) : ℚ :=
  match s1, s2 with
  | some s1, some s2 =>
    if s1 = [] ∨ s2 = [] then 0
    else
      let maxLen := max s1.length s2.length
      if maxLen = 0 then 1 else 1 - levenshteinDistance s1 s2 / maxLen
  | _, _ => 0

/-! ### The service -/

structure User where
  id : ℕ
  name : Option String
  teamId : Option ℕ
  deriving DecidableEq, Repr

structure Team where
  id : ℕ
  name : Option String
  deriving DecidableEq, Repr

structure Ticket where
  id : ℕ
  authorId : Option ℕ
  title : Option String
  type : Option String
  description : Option String
  status : Option String
  createAt : Option Int
  deriving DecidableEq, Repr

structure Db where
  users : List User
  teams : List Team
  tickets : List Ticket
  /-- The next id of a ticket. -/
  nextId : ℕ
  deriving DecidableEq, Repr

structure CreateTicketRequest where
  title : Option String
  type : Option String
  description : Option String
  /-- The names of all other fields. -/
  additionalFields : Option (List String) := none
  deriving DecidableEq, Repr

structure TicketResponse where
  id : ℕ
  authorName : Option String
  teamName : Option String
  status : Option String
  title : Option String
  type : Option String
  date : Option Int
  description : Option String
  replierName : Option String
  replierMessage : Option String
  deriving DecidableEq, Repr

inductive Reply
  | fail (message : String)
  | ok (data : TicketResponse) (message : String)
  deriving DecidableEq, Repr

/-- The calls of the database, each of which may throw. -/
inductive Query
  | user | tickets | save | team
  deriving DecidableEq, Repr

def unsupported : String := "Only title, type and description are supported"

def failed : String := "An error occurred while creating ticket"

def alreadySent : String := "You have already sent a similar ticket"

/-- The ticket of a request, with its author, when the checks before the one for similarity pass;
the database gives it its id later. -/
def newTicket (db : Db) (answers : Query → Bool) (now : Int) (request : CreateTicketRequest)
    (userId : ℕ) : Except String (User × Ticket) :=
  if !answers .user then .error failed
  else
    match db.users.find? fun user => user.id = userId with
    | none => .error "User not found"
    | some user =>
      match request.title, request.type, request.description with
      | some title, some type, some description =>
        if isNullOrWhiteSpace title || isNullOrWhiteSpace type ||
            isNullOrWhiteSpace description then
          .error "Missing information"
        else if !isPlainName title 255 then
          .error "Title must be plain text, at most 255 characters"
        else
          match ["Question", "Error", "Inform"].find? fun allowed =>
              equalsIgnoreCase (trim type) allowed with
          | none => .error "Invalid ticket type"
          | some type =>
            if 4000 < (utf16 description).length then
              .error "Description must be at most 4000 characters"
            else
              .ok (user, ⟨0, some user.id, some (trim title), some type, some description,
                some "open", some now⟩)
      | _, _, _ => .error "Missing information"

def similar (ticket new : Ticket) : Bool :=
  7 / 10 ≤ stringSimilarity (ticket.description.map utf16) (new.description.map utf16)

def mapToDto (ticket : Ticket) (authorName replierName teamName : Option String) :
    TicketResponse :=
  ⟨ticket.id, authorName, teamName, ticket.status, ticket.title, ticket.type, ticket.createAt,
    ticket.description, replierName, none⟩

/-- The team's name, where the user has a team. -/
def teamName (db : Db) (user : User) : Option String :=
  user.teamId.bind fun teamId => (db.teams.find? fun team => team.id = teamId).bind Team.name

def createTicket (db : Db) (answers : Query → Bool) (now : Int)
    (request : Option CreateTicketRequest) (userId : ℕ) : Reply × Db :=
  match request with
  | none => (.fail unsupported, db)
  | some request =>
    if 0 < (request.additionalFields.getD []).length then (.fail unsupported, db)
    else
      match newTicket db answers now request userId with
      | .error message => (.fail message, db)
      | .ok (user, new) =>
        if !answers .tickets then (.fail failed, db)
        else if (db.tickets.filter fun ticket => ticket.authorId = some user.id).any fun ticket =>
            similar ticket new then
          (.fail alreadySent, db)
        else if !answers .save then (.fail failed, db)
        else
          let new := { new with id := db.nextId }
          let db' := { db with tickets := db.tickets ++ [new], nextId := db.nextId + 1 }
          -- the ticket stays when the name of the team cannot be read
          if user.teamId.isSome && !answers .team then (.fail failed, db')
          else
            (.ok (mapToDto new user.name none (teamName db user)) "Send ticket successfully", db')

/-! ### The table holds distances -/

section Distance

variable (s t : Units)

/-- What a cell holds: the distance of the beginnings, read from their ends. -/
def prefixes (i j : ℕ) : ℕ := distance (s.take i).reverse (t.take j).reverse

theorem prefixes_zero_right {i : ℕ} (hi : i ≤ s.length) : prefixes s t i 0 = i := by
  simp [prefixes, hi]

theorem prefixes_zero_left {j : ℕ} (hj : j ≤ t.length) : prefixes s t 0 j = j := by
  simp [prefixes, hj]

theorem prefixes_length : prefixes s t s.length t.length = distance s t := by
  rw [prefixes, List.take_length, List.take_length, distance_reverse]

variable {s t}

theorem take_reverse {i : ℕ} (hi : 1 ≤ i) (his : i ≤ s.length) :
    ∃ a, s[i - 1]? = some a ∧ (s.take i).reverse = a :: (s.take (i - 1)).reverse := by
  obtain ⟨k, rfl⟩ : ∃ k, i = k + 1 := ⟨i - 1, by omega⟩
  have hk : k < s.length := by omega
  refine ⟨s[k], List.getElem?_eq_getElem hk, ?_⟩
  rw [Nat.add_sub_cancel, List.take_succ_eq_append_getElem hk, List.reverse_append,
    List.reverse_singleton, List.singleton_append]

theorem cell_eq {d : Grid.Table ℕ} {i j : ℕ} (hi : 1 ≤ i) (his : i ≤ s.length) (hj : 1 ≤ j)
    (hjt : j ≤ t.length) (habove : d (i - 1) j = prefixes s t (i - 1) j)
    (hleft : d i (j - 1) = prefixes s t i (j - 1))
    (hbefore : d (i - 1) (j - 1) = prefixes s t (i - 1) (j - 1)) :
    cell s t d i j = prefixes s t i j := by
  obtain ⟨a, ha, hs⟩ := take_reverse hi his
  obtain ⟨b, hb, ht⟩ := take_reverse hj hjt
  have hcost : (if some a = some b then 0 else 1) = cost a b := by
    simp only [Option.some.injEq, cost]
  unfold cell
  rw [habove, hleft, hbefore, ha, hb, hcost]
  simp only [prefixes, hs, ht, distance_cons]

theorem levenshteinDistance_eq (s t : Units) : levenshteinDistance s t = distance s t := by
  let column : Grid.Table ℕ := Grid.loop 0 s.length (fun i d => Grid.set d i 0 i) fun _ _ => 0
  have hcolumn : ∀ a < s.length + 1, column a 0 = a := by
    refine Grid.loop_invariant (fun i (d : Grid.Table ℕ) => ∀ a < i, d a 0 = a) (Nat.zero_le _)
      (fun a ha => absurd ha (Nat.not_lt_zero a)) ?_
    intro i d _ _ hd a ha
    by_cases hai : a = i
    · rw [hai, Grid.set_self]
    · rw [Grid.set_of_ne d i fun h => hai h.1]
      exact hd a (by omega)
  let row : Grid.Table ℕ := Grid.loop 0 t.length (fun j d => Grid.set d 0 j j) column
  have hrow : (∀ a < s.length + 1, row a 0 = a) ∧ ∀ b < t.length + 1, row 0 b = b := by
    refine Grid.loop_invariant
      (fun j (d : Grid.Table ℕ) => (∀ a < s.length + 1, d a 0 = a) ∧ ∀ b < j, d 0 b = b)
      (Nat.zero_le _) ⟨hcolumn, fun b hb => absurd hb (Nat.not_lt_zero b)⟩ ?_
    rintro j d - - ⟨hfirst, hd⟩
    constructor
    · intro a ha
      by_cases hsame : a = 0 ∧ 0 = j
      · rw [hsame.1, ← hsame.2, Grid.set_self]
      · rw [Grid.set_of_ne d j hsame]
        exact hfirst a ha
    · intro b hb
      by_cases hbj : b = j
      · rw [hbj, Grid.set_self]
      · rw [Grid.set_of_ne d j fun h => hbj h.2]
        exact hd b (by omega)
  have hfill : ∀ i ≤ s.length, ∀ j ≤ t.length,
      Grid.fill (cell s t) s.length t.length row i j = prefixes s t i j := by
    apply Grid.fill_eq
    · intro i hi
      rw [hrow.1 i (by omega), prefixes_zero_right s t hi]
    · intro j hj
      rw [hrow.2 j (by omega), prefixes_zero_left s t hj]
    · intro d i j hi his hj hjt habove hleft hbefore
      exact cell_eq hi his hj hjt habove hleft hbefore
  calc
    levenshteinDistance s t = prefixes s t s.length t.length :=
      hfill s.length le_rfl t.length le_rfl
    _ = distance s t := prefixes_length s t

example : levenshteinDistance (utf16 "door") (utf16 "odor") = 2 := by decide

end Distance

/-! ### The similarity test -/

theorem stringSimilarity_comm (s1 s2 : Option Units) :
    stringSimilarity s1 s2 = stringSimilarity s2 s1 := by
  cases s1 with
  | none => cases s2 <;> rfl
  | some s =>
    cases s2 with
    | none => rfl
    | some t =>
      simp only [stringSimilarity, levenshteinDistance_eq, distance_comm s t,
        max_comm s.length t.length, or_comm (a := s = [])]

/-- Few edits turn one string into the other: at most three in ten units of the longer one. -/
def Close (s t : Units) : Prop := ∃ n, Edits n s t ∧ 10 * n ≤ 3 * max s.length t.length

theorem close_iff {s t : Units} : Close s t ↔ 10 * distance s t ≤ 3 * max s.length t.length := by
  constructor
  · rintro ⟨n, hedits, hn⟩
    have hle := hedits.distance_le
    omega
  · intro h
    exact ⟨distance s t, edits_distance s t, h⟩

/-- The threshold of the similarity, without the quotient. -/
theorem le_stringSimilarity_iff {s t : Units} (ht : t ≠ []) :
    7 / 10 ≤ stringSimilarity (some s) (some t) ↔ Close s t := by
  have hpos : 0 < t.length := List.length_pos_of_ne_nil ht
  rw [close_iff]
  by_cases hs : s = []
  · subst hs
    have hzero : stringSimilarity (some []) (some t) = 0 := by simp [stringSimilarity]
    have hnever : ¬ (7 / 10 : ℚ) ≤ 0 := by norm_num
    rw [hzero, distance_nil_left, List.length_nil, Nat.zero_max]
    constructor
    · intro h
      exact absurd h hnever
    · intro h
      omega
  · have hmax : 0 < max s.length t.length := by omega
    have hquotient : stringSimilarity (some s) (some t) =
        1 - (distance s t : ℚ) / (max s.length t.length : ℕ) := by
      simp [stringSimilarity, hs, ht, levenshteinDistance_eq]
    have hmaxq : (0 : ℚ) < (max s.length t.length : ℕ) := by exact_mod_cast hmax
    calc
      7 / 10 ≤ stringSimilarity (some s) (some t) ↔
          (distance s t : ℚ) / (max s.length t.length : ℕ) ≤ 3 / 10 := by
        rw [hquotient]
        constructor <;> intro h <;> linarith
      _ ↔ (10 * distance s t : ℚ) ≤ 3 * (max s.length t.length : ℕ) := by
        rw [div_le_iff₀ hmaxq]
        constructor <;> intro h <;> linarith
      _ ↔ 10 * distance s t ≤ 3 * max s.length t.length := by
        exact_mod_cast Iff.rfl

theorem utf16_ne_nil {text : String} (h : isNullOrWhiteSpace text = false) : utf16 text ≠ [] := by
  intro hnil
  have hchars : text.toList = [] := by
    cases hlist : text.toList with
    | nil => rfl
    | cons c rest =>
      rw [utf16, hlist, List.flatMap_cons] at hnil
      have hunits := (List.append_eq_nil_iff.mp hnil).1
      dsimp only at hunits
      split at hunits <;> cases hunits
  rw [isNullOrWhiteSpace, hchars] at h
  cases h

/-! ### What a request is refused for -/

/-- A ticket of a request has the request's description, which is not blank. -/
theorem newTicket_description {db : Db} {answers : Query → Bool} {now : Int}
    {request : CreateTicketRequest} {userId : ℕ} {user : User} {new : Ticket}
    (h : newTicket db answers now request userId = .ok (user, new)) :
    ∃ description, request.description = some description ∧ new.description = some description ∧
      utf16 description ≠ [] := by
  unfold newTicket at h
  split at h
  · cases h
  split at h
  · cases h
  split at h
  case h_2 => cases h
  rename_i title type description _ _ hdescription
  split at h
  · cases h
  rename_i hblank
  split at h
  · cases h
  split at h
  · cases h
  split at h
  · cases h
  obtain ⟨-, rfl⟩ := Prod.mk.inj (Except.ok.inj h)
  refine ⟨description, hdescription, rfl, utf16_ne_nil ?_⟩
  simp only [Bool.or_eq_true, not_or, Bool.not_eq_true] at hblank
  exact hblank.2

/-- No other check answers as the one for similarity does. -/
theorem newTicket_error {db : Db} {answers : Query → Bool} {now : Int}
    {request : CreateTicketRequest} {userId : ℕ} {message : String}
    (h : newTicket db answers now request userId = .error message) : message ≠ alreadySent := by
  unfold newTicket at h
  repeat' split at h
  all_goals
    cases h
    try decide

/-- Some earlier ticket of the user is close to a description. -/
def SentBefore (db : Db) (user : User) (description : String) : Prop :=
  ∃ ticket ∈ db.tickets, ticket.authorId = some user.id ∧
    ∃ earlier ∈ ticket.description, Close (utf16 earlier) (utf16 description)

theorem similar_iff {ticket new : Ticket} {description : String}
    (hnew : new.description = some description) (hnonempty : utf16 description ≠ []) :
    similar ticket new = true ↔
      ∃ earlier ∈ ticket.description, Close (utf16 earlier) (utf16 description) := by
  have hnever : ¬ (7 / 10 : ℚ) ≤ 0 := by norm_num
  rw [similar, decide_eq_true_eq, hnew, Option.map_some]
  cases ticket.description with
  | none => simp [stringSimilarity, hnever]
  | some earlier => simp [le_stringSimilarity_iff hnonempty]

theorem any_similar_iff (db : Db) (user : User) {new : Ticket} {description : String}
    (hnew : new.description = some description) (hnonempty : utf16 description ≠ []) :
    ((db.tickets.filter fun ticket => ticket.authorId = some user.id).any fun ticket =>
        similar ticket new) = true ↔ SentBefore db user description := by
  rw [List.any_eq_true]
  constructor
  · rintro ⟨ticket, hticket, hsimilar⟩
    obtain ⟨hmem, hauthor⟩ := List.mem_filter.mp hticket
    exact ⟨ticket, hmem, of_decide_eq_true hauthor, (similar_iff hnew hnonempty).mp hsimilar⟩
  · rintro ⟨ticket, hmem, hauthor, hclose⟩
    exact ⟨ticket, List.mem_filter.mpr ⟨hmem, decide_eq_true hauthor⟩,
      (similar_iff hnew hnonempty).mpr hclose⟩

/-- A request gets as far as the check for similarity: it passes the checks before, and the
database answers. -/
def Compared (db : Db) (answers : Query → Bool) (now : Int) (request : CreateTicketRequest)
    (userId : ℕ) (user : User) (description : String) : Prop :=
  request.additionalFields.getD [] = [] ∧ request.description = some description ∧
    (∃ new, newTicket db answers now request userId = .ok (user, new)) ∧ answers .tickets = true

/-- A ticket that is compared is the one that the request's checks have made. -/
theorem compared_iff {db : Db} {answers : Query → Bool} {now : Int} {request : CreateTicketRequest}
    {userId : ℕ} {user user' : User} {new : Ticket} {description description' : String}
    (hfields : request.additionalFields.getD [] = [])
    (hticket : newTicket db answers now request userId = .ok (user, new))
    (hrequest : request.description = some description) :
    Compared db answers now request userId user' description' ↔
      user' = user ∧ description' = description ∧ answers .tickets = true := by
  constructor
  · rintro ⟨-, hsame, ⟨new', hnew'⟩, hanswers⟩
    have hmade := Except.ok.inj (hnew'.symm.trans hticket)
    exact ⟨(Prod.mk.inj hmade).1, Option.some.inj (hsame.symm.trans hrequest), hanswers⟩
  · rintro ⟨rfl, rfl, hanswers⟩
    exact ⟨hfields, hrequest, ⟨new, hticket⟩, hanswers⟩

theorem createTicket_alreadySent_iff (db : Db) (answers : Query → Bool) (now : Int)
    (request : CreateTicketRequest) (userId : ℕ) :
    (createTicket db answers now (some request) userId).1 = .fail alreadySent ↔
      ∃ user description, Compared db answers now request userId user description ∧
        SentBefore db user description := by
  have hfailed : failed ≠ alreadySent := by decide
  by_cases hfields : request.additionalFields.getD [] = []
  case neg =>
    have hunsupported : unsupported ≠ alreadySent := by decide
    simp [createTicket, Compared, List.length_pos_iff, hfields, hunsupported]
  cases hticket : newTicket db answers now request userId with
  | error message => simp [createTicket, Compared, hfields, hticket, newTicket_error hticket]
  | ok made =>
    obtain ⟨user, new⟩ := made
    obtain ⟨description, hrequest, hnew, hnonempty⟩ := newTicket_description hticket
    have hsent := any_similar_iff db user hnew hnonempty
    simp only [compared_iff hfields hticket hrequest]
    cases hanswers : answers .tickets with
    | false => simp [createTicket, hfields, hticket, hanswers, hfailed]
    | true =>
      have hreply : (createTicket db answers now (some request) userId).1 = .fail alreadySent ↔
          ((db.tickets.filter fun ticket => ticket.authorId = some user.id).any fun ticket =>
            similar ticket new) = true := by
        simp only [createTicket, hfields, hticket, hanswers, List.length_nil, Nat.lt_irrefl,
          Bool.not_true, if_false, Bool.false_eq_true]
        split
        · simp [*]
        · rename_i hnone
          simp only [hnone]
          -- what is left is a failure of the database or the ticket's reply
          repeat' split
          all_goals simp [hfailed]
      rw [hreply, hsent]
      constructor
      · intro hbefore
        exact ⟨user, description, ⟨rfl, rfl, rfl⟩, hbefore⟩
      · rintro ⟨_, _, ⟨rfl, rfl, -⟩, hbefore⟩
        exact hbefore

/-- The distance is the least number of single insertions, deletions and substitutions, the
similarity is symmetric, and a ticket is refused for its similarity exactly when one of its
author's tickets is as close as three in ten units of the longer description. -/
theorem similarity_is_edit_distance :
    (∀ s t : Units, IsLeast {n | Edits n s t} (levenshteinDistance s t)) ∧
    (∀ s1 s2 : Option Units, stringSimilarity s1 s2 = stringSimilarity s2 s1) ∧
    ∀ (db : Db) (answers : Query → Bool) (now : Int) (request : CreateTicketRequest) (userId : ℕ),
      (createTicket db answers now (some request) userId).1 = .fail alreadySent ↔
        ∃ user description, Compared db answers now request userId user description ∧
          SentBefore db user description := by
  refine ⟨fun s t => ?_, stringSimilarity_comm, createTicket_alreadySent_iff⟩
  rw [levenshteinDistance_eq]
  exact isLeast_distance s t

end Fctf.TicketService
