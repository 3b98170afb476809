import Fctf.Contest.Ticket
import Fctf.Lib.Run
import Mathlib.Data.List.Nodup

/-!
The tickets between the contestants, who write and withdraw them, and the staff, who reply. The
requests of both read first and write later, and the database changes in between.
-/

namespace Fctf.TicketService

open Run

/-- A row of `tickets`, with the columns of its reply. -/
structure Row where
  ticket : Ticket
  replierId : Option ℕ := none
  replierMessage : Option String := none
  deriving DecidableEq, Repr

/-- What a request has read and is going to write. -/
inductive Job
  /-- The new ticket has not been compared yet. -/
  | creating (new : Ticket)
  | compared (new : Ticket)
  | deleting (id userId : ℕ)
  /-- The row as it was read, and the reply. -/
  | replying (loaded : Row) (replierId : ℕ) (message : String)
  deriving DecidableEq, Repr

structure Desk where
  users : List User
  rows : List Row
  /-- The next id of a ticket. -/
  nextId : ℕ
  jobs : ℕ → Option Job

inductive Event
  /-- `CreateTicket` up to the query for the tickets, that query, and `SaveChanges`. -/
  | create (token : ℕ) (now : Int) (request : Option CreateTicketRequest) (userId : ℕ)
  | compare (token : ℕ)
  | insert (token : ℕ)
  /-- `DeleteTicket` up to `SaveChanges`, and that. -/
  | delete (token : ℕ) (ticketId userId : ℕ)
  | remove (token : ℕ)
  /-- `send_ticket_from_relier` up to the commit, and that. -/
  | reply (token : ℕ) (ticketId replierId : ℕ) (message : String)
  | answer (token : ℕ)
  /-- `delete_tickets`. -/
  | sweep (ids : List ℕ)
  | register (user : User)
  /-- A user is deleted, and with them what they wrote and what they replied to. -/
  | drop (userId : ℕ)
  /-- The request of a token ends early. -/
  | lost (token : ℕ)
  deriving DecidableEq, Repr

namespace Desk

-- `lower` stands for `ToLower`
variable (lower : String → String) (d : Desk)

def row (id : ℕ) : Option Row := d.rows.find? fun row => row.ticket.id = id

def hasUser (id : ℕ) : Bool := d.users.any fun user => user.id = id

def setJob (token : ℕ) (job : Option Job) : Desk :=
  { d with jobs := Function.update d.jobs token job }

/-- The ticket of a request, when its checks pass. -/
def created (now : Int) (request : Option CreateTicketRequest) (userId : ℕ) : Option Ticket :=
  match request with
  | none => none
  | some request =>
    if 0 < (request.additionalFields.getD []).length then none
    else
      match newTicket ⟨d.users, [], [], 0⟩ (fun _ => true) now request userId with
      | .error _ => none
      | .ok (_, new) => some new

/-- One of the author's tickets is similar. -/
def sent (new : Ticket) : Bool :=
  (d.rows.filter fun row => row.ticket.authorId = new.authorId).any fun row =>
    similar row.ticket new

def isReplied (row : Row) : Bool := !row.replierMessage.all (· = "")

/-- The user's own ticket, when it can be withdrawn. -/
def deletable (ticketId userId : ℕ) : Option Row :=
  (d.row ticketId).filter fun row =>
    row.ticket.authorId = some userId && !isReplied row &&
      row.ticket.status.any fun status => lower status = "open"

/-- The columns that differ from what was read are written. -/
def replied (loaded : Row) (replierId : ℕ) (message : String) (row : Row) : Row :=
  { ticket := { row.ticket with
      status :=
        if loaded.ticket.status = some "Closed" then row.ticket.status else some "Closed" }
    replierId := if loaded.replierId = some replierId then row.replierId else some replierId
    replierMessage :=
      if loaded.replierMessage = some message then row.replierMessage else some message }

/-- The rows after a reply; a replier who is gone must not be written. -/
def answered (loaded : Row) (replierId : ℕ) (message : String) : List Row :=
  if loaded.replierId = some replierId || d.hasUser replierId then
    d.rows.map fun row =>
      if row.ticket.id = loaded.ticket.id then replied loaded replierId message row else row
  else d.rows

def step : Event → Option Desk
  | .create token now request userId =>
    if d.jobs token = none then
      some (d.setJob token ((d.created now request userId).map .creating))
    else none
  | .compare token =>
    match d.jobs token with
    | some (.creating new) =>
      some (d.setJob token (if d.sent new then none else some (.compared new)))
    | _ => none
  | .insert token =>
    match d.jobs token with
    | some (.compared new) =>
      let d := d.setJob token none
      -- the row needs its author
      if new.authorId.all d.hasUser then
        some { d with
          rows := d.rows ++ [{ ticket := { new with id := d.nextId } }]
          nextId := d.nextId + 1 }
      else some d
    | _ => none
  | .delete token ticketId userId =>
    if d.jobs token = none then
      some (d.setJob token
        ((d.deletable lower ticketId userId).map fun _ => .deleting ticketId userId))
    else none
  | .remove token =>
    match d.jobs token with
    | some (.deleting id _) =>
      some { d.setJob token none with rows := d.rows.filter fun row => row.ticket.id ≠ id }
    | _ => none
  | .reply token ticketId replierId message =>
    if d.jobs token = none then
      some (d.setJob token (if message = "" then none
        else (d.row ticketId).map fun loaded => .replying loaded replierId message))
    else none
  | .answer token =>
    match d.jobs token with
    | some (.replying loaded replierId message) =>
      some { d.setJob token none with rows := d.answered loaded replierId message }
    | _ => none
  | .sweep ids => some { d with rows := d.rows.filter fun row => row.ticket.id ∉ ids }
  | .register user => if d.hasUser user.id then none else some { d with users := d.users ++ [user] }
  | .drop userId =>
    some { d with
      users := d.users.filter fun user => user.id ≠ userId
      rows := d.rows.filter fun row =>
        row.ticket.authorId ≠ some userId ∧ row.replierId ≠ some userId }
  | .lost token => some (d.setJob token none)

end Desk

/-! ### What happened when -/

/-- The steps are counted, and those that a result speaks of are dated. -/
structure History where
  clock : ℕ
  /-- When the request of a token read what its checks need. -/
  read : ℕ → ℕ
  /-- When the request of a ticket read, and when it was saved. -/
  compared : ℕ → ℕ
  saved : ℕ → ℕ
  /-- When a ticket was first replied to. -/
  firstReply : ℕ → Option ℕ

namespace History

def empty : History := ⟨0, fun _ => 0, fun _ => 0, fun _ => 0, fun _ => none⟩

/-- The tickets that are replied to get a date, unless they have one. -/
def dated (g : History) (d : Desk) : ℕ → Option ℕ := fun id =>
  (g.firstReply id).or
    (if d.rows.any fun row => row.ticket.id = id && Desk.isReplied row then some g.clock else none)

def observe (g : History) (d : Desk) (e : Event) (d' : Desk) : History :=
  let g := { g with firstReply := g.dated d' }
  match e with
  | .compare token | .delete token _ _ =>
    { g with clock := g.clock + 1, read := Function.update g.read token g.clock }
  | .insert token =>
    { g with
      clock := g.clock + 1
      compared := Function.update g.compared d.nextId (g.read token)
      saved := Function.update g.saved d.nextId g.clock }
  | _ => { g with clock := g.clock + 1 }

end History

/-! ### A request on its own -/

theorem newTicket_new {db : Db} {answers : Query → Bool} {now : Int}
    {request : CreateTicketRequest} {userId : ℕ} {user : User} {new : Ticket}
    (h : newTicket db answers now request userId = .ok (user, new)) :
    user ∈ db.users ∧ new.authorId = some user.id ∧ new.status = some "open" := by
  unfold newTicket at h
  repeat' split at h
  all_goals cases h
  exact ⟨List.mem_of_find?_eq_some (by assumption), rfl, rfl⟩

namespace Desk

variable (lower : String → String) (d : Desk)

/-- The steps that are enabled. -/
def run (events : List Event) : Desk := events.foldl (fun d e => (d.step lower e).getD d) d

/-- The tables that `CreateTicket` reads. -/
def db : Db := ⟨d.users, [], d.rows.map Row.ticket, d.nextId⟩

variable {lower d}

theorem sent_eq (new : Ticket) : d.sent new =
    ((d.db.tickets.filter fun ticket => ticket.authorId = new.authorId).any fun ticket =>
      similar ticket new) := by
  simp only [sent, db, List.filter_map, List.any_map]
  rfl

/-- A request on its own is refused before it is compared, for its similarity, or it is saved. -/
theorem createTicket_cases (now : Int) (request : Option CreateTicketRequest) (userId : ℕ) :
    (createTicket d.db (fun _ => true) now request userId).2 =
      match d.created now request userId with
      | none => d.db
      | some new =>
        if d.sent new then d.db
        else { d.db with
          tickets := d.db.tickets ++ [{ new with id := d.nextId }]
          nextId := d.nextId + 1 } := by
  cases request with
  | none => rfl
  | some request =>
    have hdb : newTicket d.db (fun _ => true) now request userId =
        newTicket ⟨d.users, [], [], 0⟩ (fun _ => true) now request userId := rfl
    by_cases hfields : 0 < (request.additionalFields.getD []).length
    · simp only [createTicket, created, hfields, if_true]
    · simp only [createTicket, created, hfields, if_false, hdb]
      cases hnew : newTicket ⟨d.users, [], [], 0⟩ (fun _ => true) now request userId with
      | error message => simp
      | ok found =>
        obtain ⟨user, new⟩ := found
        have hsent := d.sent_eq new
        rw [(newTicket_new hnew).2.1] at hsent
        simp only [Bool.not_true, Bool.false_eq_true, if_false, ← hsent, Bool.and_false]
        split <;> rfl

theorem created_author {now : Int} {request : Option CreateTicketRequest} {userId : ℕ}
    {new : Ticket}
    (h : d.created now request userId = some new) : new.authorId.all d.hasUser = true := by
  unfold created at h
  split at h
  · cases h
  · split_ifs at h
    split at h
    · cases h
    · rename_i user new' hnew
      obtain rfl := Option.some.inj h
      obtain ⟨huser, hauthor, -⟩ := newTicket_new hnew
      rw [hauthor]
      exact List.any_eq_true.mpr ⟨user, huser, decide_eq_true rfl⟩

@[simp] theorem setJob_jobs (token : ℕ) (job : Option Job) :
    (d.setJob token job).jobs token = job := Function.update_self _ _ _

@[simp] theorem setJob_rows (token : ℕ) (job : Option Job) :
    (d.setJob token job).rows = d.rows := rfl

@[simp] theorem setJob_users (token : ℕ) (job : Option Job) :
    (d.setJob token job).users = d.users := rfl

@[simp] theorem setJob_nextId (token : ℕ) (job : Option Job) :
    (d.setJob token job).nextId = d.nextId := rfl

@[simp] theorem setJob_setJob (token : ℕ) (job job' : Option Job) :
    (d.setJob token job).setJob token job' = d.setJob token job' := by
  simp [setJob]

/-- Without other requests in between, the steps save what `CreateTicket` saves. -/
theorem run_create {token : ℕ} (htoken : d.jobs token = none) (now : Int)
    (request : Option CreateTicketRequest) (userId : ℕ) :
    (d.run lower [.create token now request userId, .compare token, .insert token]).db =
      (createTicket d.db (fun _ => true) now request userId).2 := by
  rw [createTicket_cases]
  have hstart : d.step lower (.create token now request userId) =
      some (d.setJob token ((d.created now request userId).map .creating)) := by
    simp only [step, htoken, if_true]
  cases hnew : d.created now request userId with
  | none =>
    simp only [run, List.foldl_cons, List.foldl_nil, hstart, hnew, Option.map_none,
      Option.getD_some]
    simp [step, db]
  | some new =>
    have huser : new.authorId.all d.hasUser = true := created_author hnew
    have hcompare : (d.setJob token (some (.creating new))).step lower (.compare token) =
        some (d.setJob token (if d.sent new then none else some (.compared new))) := by
      simp [step, sent]
    simp only [run, List.foldl_cons, List.foldl_nil, hstart, hnew, Option.map_some,
      Option.getD_some, hcompare]
    by_cases hsent : d.sent new = true
    · simp [hsent, step, db]
    · have hinsert : new.authorId.all (d.setJob token none).hasUser = true := huser
      simp [hsent, step, db, hinsert]

end Desk

/-! ### The invariant -/

section Invariant

variable {lower : String → String} {d d' : Desk} {g : History} {e : Event}

structure RowOk (d : Desk) (g : History) (row : Row) : Prop where
  bound : row.ticket.id < d.nextId
  saved : g.saved row.ticket.id < g.clock
  status : row.ticket.status = some (if Desk.isReplied row then "Closed" else "open")
  reply : (g.firstReply row.ticket.id).isSome = Desk.isReplied row

/-- One author's similar tickets: the later was compared before the earlier was saved. -/
def Overlapped (g : History) (row later : Row) : Prop :=
  row.ticket.authorId = later.ticket.authorId → similar row.ticket later.ticket = true →
    g.compared later.ticket.id < g.saved row.ticket.id

def JobOk (d : Desk) (g : History) (time : ℕ) : Job → Prop
  | .creating new => new.status = some "open"
  | .compared new => new.status = some "open" ∧ time < g.clock ∧
      ∀ row ∈ d.rows, row.ticket.authorId = new.authorId → similar row.ticket new = true →
        time < g.saved row.ticket.id
  | .deleting id userId => time < g.clock ∧ id < d.nextId ∧
      (∀ row ∈ d.rows, row.ticket.id = id → row.ticket.authorId = some userId) ∧
      ∀ t, g.firstReply id = some t → time < t
  | .replying loaded _ message => message ≠ "" ∧
      (Desk.isReplied loaded = true → (g.firstReply loaded.ticket.id).isSome = true) ∧
      (loaded.ticket.status = some "Closed" → Desk.isReplied loaded = true)

structure Inv (d : Desk) (g : History) : Prop where
  rows : ∀ row ∈ d.rows, RowOk d g row
  ids : d.rows.Pairwise fun row later => row.ticket.id < later.ticket.id
  overlapped : d.rows.Pairwise (Overlapped g)
  dates : ∀ id t, g.firstReply id = some t → t < g.clock ∧ id < d.nextId
  jobs : ∀ token job, d.jobs token = some job → JobOk d g (g.read token) job

/-- What a request leaves of a row: its reply stays. -/
structure Follows (row row' : Row) : Prop where
  id : row'.ticket.id = row.ticket.id
  author : row'.ticket.authorId = row.ticket.authorId
  description : row'.ticket.description = row.ticket.description
  reply : Desk.isReplied row = true → Desk.isReplied row' = true
  status : row'.ticket.status = some (if Desk.isReplied row' then "Closed" else "open")

theorem similar_congr {ticket ticket' new : Ticket}
    (h : ticket'.description = ticket.description) : similar ticket' new = similar ticket new := by
  unfold similar
  rw [h]

theorem similar_congr_right {ticket new new' : Ticket}
    (h : new'.description = new.description) : similar ticket new' = similar ticket new := by
  unfold similar
  rw [h]

theorem eq_of_id {rows : List Row}
    (hids : rows.Pairwise fun row later => row.ticket.id < later.ticket.id) {row row' : Row}
    (hrow : row ∈ rows) (hrow' : row' ∈ rows) (h : row.ticket.id = row'.ticket.id) :
    row = row' := by
  have hnodup : (rows.map fun row => row.ticket.id).Nodup :=
    List.pairwise_map.mpr (hids.imp fun hlt => Nat.ne_of_lt hlt)
  exact List.inj_on_of_nodup_map hnodup hrow hrow' h

/-- A reply has a date as soon as it is there. -/
theorem dated_isSome
    (hids : d.rows.Pairwise fun row later => row.ticket.id < later.ticket.id) {row : Row}
    (hrow : row ∈ d.rows)
    (hkept : (g.firstReply row.ticket.id).isSome = true → Desk.isReplied row = true) :
    (g.dated d row.ticket.id).isSome = Desk.isReplied row := by
  rw [Bool.eq_iff_iff, History.dated, Option.isSome_or, Bool.or_eq_true]
  constructor
  · rintro (hfirst | hnow)
    · exact hkept hfirst
    · split_ifs at hnow with hany
      · obtain ⟨row', hrow', hid⟩ := List.any_eq_true.mp hany
        obtain ⟨hid, hreplied⟩ := (Bool.and_eq_true _ _).mp hid
        rwa [eq_of_id hids hrow hrow' (of_decide_eq_true hid).symm]
      · cases hnow
  · intro hreplied
    right
    rw [if_pos]
    · rfl
    · exact List.any_eq_true.mpr ⟨row, hrow, by simpa using hreplied⟩

theorem dated_eq (g : History) (d : Desk) (id : ℕ) :
    g.dated d id = g.firstReply id ∨
      g.firstReply id = none ∧ g.dated d id = some g.clock ∧
        ∃ row ∈ d.rows, row.ticket.id = id := by
  unfold History.dated
  cases g.firstReply id with
  | some t => exact .inl rfl
  | none =>
    rw [Option.none_or]
    split_ifs with hany
    · obtain ⟨row, hrow, hid⟩ := List.any_eq_true.mp hany
      exact .inr ⟨rfl, rfl, row, hrow, of_decide_eq_true ((Bool.and_eq_true _ _).mp hid).1⟩
    · exact .inl rfl

@[simp] theorem observe_firstReply (g : History) (d d' : Desk) (e : Event) :
    (g.observe d e d').firstReply = g.dated d' := by
  cases e <;> rfl

@[simp] theorem observe_clock (g : History) (d d' : Desk) (e : Event) :
    (g.observe d e d').clock = g.clock + 1 := by
  cases e <;> rfl

theorem observe_saved {id : ℕ} (hid : id < d.nextId) (g : History) (d' : Desk) (e : Event) :
    (g.observe d e d').saved id = g.saved id := by
  cases e with
  | insert token => exact Function.update_of_ne (Nat.ne_of_lt hid) _ _
  | _ => rfl

theorem observe_compared {id : ℕ} (hid : id < d.nextId) (g : History) (d' : Desk) (e : Event) :
    (g.observe d e d').compared id = g.compared id := by
  cases e with
  | insert token => exact Function.update_of_ne (Nat.ne_of_lt hid) _ _
  | _ => rfl

theorem Follows.refl {row : Row} (h : RowOk d g row) : Follows row row :=
  ⟨rfl, rfl, rfl, fun h => h, h.status⟩

/-- What a request holds stays right while other requests take their steps. -/
theorem JobOk.later {g' : History} {time : ℕ} {job : Job} (h : JobOk d g time job)
    (hclock : g.clock ≤ g'.clock) (hnext : d.nextId ≤ d'.nextId)
    (hreply : ∀ id, g'.firstReply id = g.firstReply id ∨
      g.firstReply id = none ∧ g'.firstReply id = some g.clock)
    (hrows : ∀ row' ∈ d'.rows, g.clock ≤ g'.saved row'.ticket.id ∧ d.nextId ≤ row'.ticket.id ∨
      ∃ row ∈ d.rows, Follows row row' ∧ g'.saved row'.ticket.id = g.saved row.ticket.id) :
    JobOk d' g' time job := by
  cases job with
  | creating new => exact h
  | compared new =>
    obtain ⟨hopen, htime, hcompared⟩ := h
    refine ⟨hopen, by omega, ?_⟩
    intro row' hrow' hauthor hsimilar
    rcases hrows row' hrow' with ⟨hsaved, -⟩ | ⟨row, hrow, hfollows, hsaved⟩
    · omega
    · rw [hsaved]
      rw [hfollows.author] at hauthor
      rw [similar_congr hfollows.description] at hsimilar
      exact hcompared row hrow hauthor hsimilar
  | deleting id userId =>
    obtain ⟨htime, hid, hauthor, hfirst⟩ := h
    refine ⟨by omega, by omega, ?_, ?_⟩
    · intro row' hrow' hrow
      rcases hrows row' hrow' with ⟨-, hlate⟩ | ⟨row, hmem, hfollows, -⟩
      · omega
      · rw [hfollows.author]
        exact hauthor row hmem (hfollows.id.symm.trans hrow)
    · intro t ht
      rcases hreply id with hsame | ⟨-, hnew⟩
      · exact hfirst t (hsame.symm.trans ht)
      · obtain rfl := Option.some.inj (hnew.symm.trans ht)
        exact htime
  | replying loaded replierId message =>
    obtain ⟨hmessage, hfirst, hclosed⟩ := h
    refine ⟨hmessage, ?_, hclosed⟩
    intro hreplied
    rcases hreply loaded.ticket.id with hsame | ⟨-, hnew⟩
    · rw [hsame]
      exact hfirst hreplied
    · rw [hnew]
      rfl

theorem observe_reply (g : History) (d d' : Desk) (e : Event) (id : ℕ) :
    (g.observe d e d').firstReply id = g.firstReply id ∨
      g.firstReply id = none ∧ (g.observe d e d').firstReply id = some g.clock := by
  rw [observe_firstReply]
  rcases dated_eq g d' id with h | ⟨hnone, hsome, -⟩
  · exact .inl h
  · exact .inr ⟨hnone, hsome⟩

theorem Inv.dated_bound (h : Inv d g) (hnext : d.nextId ≤ d'.nextId)
    (hrows : ∀ row ∈ d'.rows, row.ticket.id < d'.nextId) (id t : ℕ)
    (ht : g.dated d' id = some t) : t < g.clock + 1 ∧ id < d'.nextId := by
  rcases dated_eq g d' id with hsame | ⟨-, hnow, row, hrow, hid⟩
  · obtain ⟨htime, hbound⟩ := h.dates id t (hsame.symm.trans ht)
    omega
  · obtain rfl := Option.some.inj (hnow.symm.trans ht)
    exact ⟨Nat.lt_succ_self _, hid ▸ hrows row hrow⟩

/-- A step that keeps some rows, with their replies, and adds none. -/
theorem Inv.kept (h : Inv d g) {kept : List Row} {f : Row → Row}
    (hrows : d'.rows = kept.map f) (hkept : kept.Sublist d.rows)
    (hf : ∀ row ∈ d.rows, Follows row (f row)) (hnext : d'.nextId = d.nextId)
    (hjobs : ∀ token job, d'.jobs token = some job →
      d.jobs token = some job ∧ (g.observe d e d').read token = g.read token ∨
      JobOk d' (g.observe d e d') ((g.observe d e d').read token) job) :
    Inv d' (g.observe d e d') := by
  have hfrom : ∀ row' ∈ d'.rows, ∃ row ∈ d.rows, Follows row row' := by
    intro row' hrow'
    rw [hrows] at hrow'
    obtain ⟨row, hrow, rfl⟩ := List.mem_map.mp hrow'
    exact ⟨row, hkept.subset hrow, hf row (hkept.subset hrow)⟩
  have hids : d'.rows.Pairwise fun row later => row.ticket.id < later.ticket.id := by
    rw [hrows, List.pairwise_map]
    refine (h.ids.sublist hkept).imp_of_mem ?_
    intro row later hrow hlater hlt
    rwa [(hf row (hkept.subset hrow)).id, (hf later (hkept.subset hlater)).id]
  have hbound : ∀ row' ∈ d'.rows, row'.ticket.id < d.nextId := by
    intro row' hrow'
    obtain ⟨row, hrow, hfollows⟩ := hfrom row' hrow'
    rw [hfollows.id]
    exact (h.rows row hrow).bound
  constructor
  · intro row' hrow'
    obtain ⟨row, hrow, hfollows⟩ := hfrom row' hrow'
    have hok := h.rows row hrow
    constructor
    · rw [hnext]
      exact hbound row' hrow'
    · rw [observe_saved (hbound row' hrow'), observe_clock, hfollows.id]
      exact Nat.lt_succ_of_lt hok.saved
    · exact hfollows.status
    · rw [observe_firstReply]
      apply dated_isSome hids hrow'
      rw [hfollows.id, hok.reply]
      exact hfollows.reply
  · exact hids
  · rw [hrows, List.pairwise_map]
    refine (h.overlapped.sublist hkept).imp_of_mem ?_
    intro row later hrow hlater hover hauthor hsimilar
    have hrow := hkept.subset hrow
    have hlater := hkept.subset hlater
    rw [(hf row hrow).author, (hf later hlater).author] at hauthor
    rw [similar_congr (hf row hrow).description,
      similar_congr_right (hf later hlater).description] at hsimilar
    rw [(hf row hrow).id, (hf later hlater).id, observe_saved (h.rows row hrow).bound,
      observe_compared (h.rows later hlater).bound]
    exact hover hauthor hsimilar
  · intro id t ht
    rw [observe_firstReply] at ht
    rw [observe_clock]
    exact h.dated_bound hnext.ge (fun row hrow => hnext.symm ▸ hbound row hrow) id t ht
  · intro token job hjob
    rcases hjobs token job hjob with ⟨hbefore, hread⟩ | hok
    · rw [hread]
      apply (h.jobs token job hbefore).later
      · rw [observe_clock]
        exact Nat.le_succ _
      · exact hnext.ge
      · exact observe_reply g d d' e
      · intro row' hrow'
        obtain ⟨row, hrow, hfollows⟩ := hfrom row' hrow'
        refine .inr ⟨row, hrow, hfollows, ?_⟩
        rw [observe_saved (hbound row' hrow'), hfollows.id]
    · exact hok

theorem created_status {now : Int} {request : Option CreateTicketRequest} {userId : ℕ}
    {new : Ticket} (h : d.created now request userId = some new) : new.status = some "open" := by
  unfold Desk.created at h
  split at h
  · cases h
  · split_ifs at h
    split at h
    · cases h
    · rename_i user new' hnew
      obtain rfl := Option.some.inj h
      exact (newTicket_new hnew).2.2

/-- A ticket is saved: it was compared with those that were there when its request read. -/
theorem Inv.insert (h : Inv d g) {token : ℕ} {new : Ticket}
    (hjob : d.jobs token = some (.compared new))
    (hrows : d'.rows = d.rows ++ [{ ticket := { new with id := d.nextId } }])
    (hnext : d'.nextId = d.nextId + 1)
    (hjobs : d'.jobs = Function.update d.jobs token none) :
    Inv d' (g.observe d (.insert token) d') := by
  obtain ⟨hopen, htime, hcompared⟩ := h.jobs token _ hjob
  have hnone : g.firstReply d.nextId = none := by
    cases hfirst : g.firstReply d.nextId with
    | none => rfl
    | some t => exact absurd (h.dates _ t hfirst).2 (Nat.lt_irrefl _)
  have hids : d'.rows.Pairwise fun row later => row.ticket.id < later.ticket.id := by
    rw [hrows, List.pairwise_append]
    refine ⟨h.ids, List.pairwise_singleton _ _, ?_⟩
    intro row hrow later hlater
    rw [List.mem_singleton.mp hlater]
    exact (h.rows row hrow).bound
  have hsavedNew : (g.observe d (.insert token) d').saved d.nextId = g.clock :=
    Function.update_self _ _ _
  have hcomparedNew : (g.observe d (.insert token) d').compared d.nextId = g.read token :=
    Function.update_self _ _ _
  have hmem : ∀ row ∈ d'.rows, row ∈ d.rows ∨ row = { ticket := { new with id := d.nextId } } := by
    intro row hrow
    rw [hrows, List.mem_append, List.mem_singleton] at hrow
    exact hrow
  constructor
  · intro row hrow
    rcases hmem row hrow with hold | rfl
    · have hok := h.rows row hold
      constructor
      · rw [hnext]
        exact Nat.lt_succ_of_lt hok.bound
      · rw [observe_saved hok.bound, observe_clock]
        exact Nat.lt_succ_of_lt hok.saved
      · exact hok.status
      · rw [observe_firstReply]
        apply dated_isSome hids hrow
        rw [hok.reply]
        exact fun h => h
    · constructor
      · rw [hnext]
        exact Nat.lt_succ_self _
      · rw [hsavedNew, observe_clock]
        exact Nat.lt_succ_self _
      · exact hopen
      · rw [observe_firstReply]
        apply dated_isSome hids hrow
        simp only [hnone, Option.isSome_none, Bool.false_eq_true, IsEmpty.forall_iff]
  · exact hids
  · rw [hrows, List.pairwise_append]
    refine ⟨?_, List.pairwise_singleton _ _, ?_⟩
    · refine h.overlapped.imp_of_mem ?_
      intro row later hrow hlater hover hauthor hsimilar
      rw [observe_saved (h.rows row hrow).bound, observe_compared (h.rows later hlater).bound]
      exact hover hauthor hsimilar
    · intro row hrow later hlater hauthor hsimilar
      obtain rfl := List.mem_singleton.mp hlater
      rw [observe_saved (h.rows row hrow).bound, hcomparedNew]
      exact hcompared row hrow hauthor hsimilar
  · intro id t ht
    rw [observe_firstReply] at ht
    rw [observe_clock]
    apply h.dated_bound (by omega) ?_ id t ht
    intro row hrow
    rcases hmem row hrow with hold | rfl
    · exact hnext ▸ Nat.lt_succ_of_lt (h.rows row hold).bound
    · exact hnext ▸ Nat.lt_succ_self _
  · intro token' job hother
    rw [hjobs, Function.update_apply] at hother
    split_ifs at hother
    apply (h.jobs token' job hother).later
    · rw [observe_clock]
      exact Nat.le_succ _
    · omega
    · exact observe_reply g d d' _
    · intro row hrow
      rcases hmem row hrow with hold | rfl
      · exact .inr ⟨row, hold, .refl (h.rows row hold), observe_saved (h.rows row hold).bound _ _ _⟩
      · exact .inl ⟨hsavedNew.ge, Nat.le_refl _⟩

/-- The steps that touch the requests only. -/
theorem Inv.setJob (h : Inv d g) {token : ℕ} {job : Option Job}
    (hread : ∀ token', token' ≠ token →
      (g.observe d e (d.setJob token job)).read token' = g.read token')
    (hjob : ∀ new, job = some new →
      JobOk (d.setJob token job) (g.observe d e (d.setJob token job))
        ((g.observe d e (d.setJob token job)).read token) new) :
    Inv (d.setJob token job) (g.observe d e (d.setJob token job)) := by
  have hrows : (d.setJob token job).rows = d.rows.map id := (List.map_id _).symm
  apply h.kept hrows (List.Sublist.refl _) (fun row hrow => .refl (h.rows row hrow)) rfl
  intro token' job' hjob'
  simp only [Desk.setJob, Function.update_apply] at hjob'
  split_ifs at hjob' with htoken
  · subst htoken
    exact .inr (hjob job' hjob')
  · exact .inl ⟨hjob', hread token' htoken⟩

/-- The steps that take rows away. -/
theorem Inv.filter (h : Inv d g) {keep : Row → Bool} (hrows : d'.rows = d.rows.filter keep)
    (hnext : d'.nextId = d.nextId)
    (hread : (g.observe d e d').read = g.read)
    (hjobs : ∀ token job, d'.jobs token = some job → d.jobs token = some job) :
    Inv d' (g.observe d e d') := by
  apply h.kept (hrows.trans (List.map_id _).symm) List.filter_sublist
    (fun row hrow => .refl (h.rows row hrow)) hnext
  intro token job hjob
  exact .inl ⟨hjobs token job hjob, congrFun hread token⟩

theorem row_eq_some {id : ℕ} {row : Row} (h : d.row id = some row) :
    row ∈ d.rows ∧ row.ticket.id = id :=
  ⟨List.mem_of_find?_eq_some h, by simpa using List.find?_some h⟩

theorem Inv.dated_isSome (h : Inv d g) {row : Row} (hrow : row ∈ d.rows) :
    (g.dated d row.ticket.id).isSome = Desk.isReplied row := by
  apply TicketService.dated_isSome h.ids hrow
  rw [(h.rows row hrow).reply]
  exact fun h => h

theorem setJob_of_none {token token' : ℕ} {job : Job}
    (h : (d.setJob token none).jobs token' = some job) : d.jobs token' = some job := by
  simp only [Desk.setJob, Function.update_apply] at h
  split_ifs at h
  exact h

/-- A reply leaves the row that it is for replied to, and closed. -/
theorem follows_replied {loaded row : Row} {replierId : ℕ} {message : String}
    (hok : RowOk d g row) (hmessage : message ≠ "")
    (hfirst : Desk.isReplied loaded = true → Desk.isReplied row = true)
    (hclosed : loaded.ticket.status = some "Closed" → Desk.isReplied loaded = true) :
    Follows row (Desk.replied loaded replierId message row) := by
  have hreplied : Desk.isReplied (Desk.replied loaded replierId message row) = true := by
    by_cases hsame : loaded.replierMessage = some message
    · have hloaded : Desk.isReplied loaded = true := by
        simp [Desk.isReplied, hsame, hmessage]
      simpa [Desk.isReplied, Desk.replied, hsame] using hfirst hloaded
    · simp [Desk.isReplied, Desk.replied, hsame, hmessage]
  refine ⟨rfl, rfl, rfl, fun _ => hreplied, ?_⟩
  rw [hreplied, if_pos rfl]
  by_cases hsame : loaded.ticket.status = some "Closed"
  · have hrow := hok.status
    rw [hfirst (hclosed hsame), if_pos rfl] at hrow
    simp [Desk.replied, hsame, hrow]
  · simp [Desk.replied, hsame]

theorem Inv.answered (h : Inv d g) {token : ℕ} {loaded : Row} {replierId : ℕ} {message : String}
    (hjob : d.jobs token = some (.replying loaded replierId message)) :
    ∃ f, d.answered loaded replierId message = d.rows.map f ∧
      ∀ row ∈ d.rows, Follows row (f row) := by
  obtain ⟨hmessage, hfirst, hclosed⟩ := h.jobs token _ hjob
  unfold Desk.answered
  split_ifs
  · refine ⟨_, rfl, ?_⟩
    intro row hrow
    have hok := h.rows row hrow
    split_ifs with hid
    · apply follows_replied hok hmessage ?_ hclosed
      intro hloaded
      rw [← hok.reply, hid]
      exact hfirst hloaded
    · exact .refl hok
  · exact ⟨id, (List.map_id _).symm, fun row hrow => .refl (h.rows row hrow)⟩

theorem Inv.step (h : Inv d g) (hstep : d.step lower e = some d') :
    Inv d' (g.observe d e d') := by
  cases e with
  | create token now request userId =>
    simp only [Desk.step] at hstep
    split_ifs at hstep
    cases hstep
    apply h.setJob (fun _ _ => rfl)
    intro job hjob
    obtain ⟨new, hnew, rfl⟩ := Option.map_eq_some_iff.mp hjob
    exact created_status hnew
  | compare token =>
    simp only [Desk.step] at hstep
    split at hstep
    · rename_i new hnew
      cases hstep
      refine h.setJob ?_ ?_
      · exact fun _ hne => Function.update_of_ne hne _ _
      intro job hjob
      split_ifs at hjob with hsent
      cases hjob
      refine ⟨h.jobs token _ hnew, ?_, ?_⟩
      · simp [History.observe]
      · intro row hrow hauthor hsimilar
        refine absurd (List.any_eq_true.mpr ⟨row, ?_, hsimilar⟩) hsent
        exact List.mem_filter.mpr ⟨hrow, decide_eq_true hauthor⟩
    · cases hstep
  | insert token =>
    simp only [Desk.step] at hstep
    split at hstep
    · rename_i new hnew
      split_ifs at hstep
      · cases hstep
        exact h.insert hnew rfl rfl rfl
      · cases hstep
        refine h.setJob ?_ ?_
        · exact fun _ _ => rfl
        · intro job hjob
          cases hjob
    · cases hstep
  | delete token ticketId userId =>
    simp only [Desk.step] at hstep
    split_ifs at hstep
    cases hstep
    refine h.setJob ?_ ?_
    · exact fun _ hne => Function.update_of_ne hne _ _
    intro job hjob
    obtain ⟨row, hrow, rfl⟩ := Option.map_eq_some_iff.mp hjob
    obtain ⟨hrow, hown⟩ := Option.filter_eq_some_iff.mp hrow
    obtain ⟨hmem, rfl⟩ := row_eq_some hrow
    simp only [Bool.and_eq_true, decide_eq_true_eq, Bool.not_eq_true'] at hown
    refine ⟨?_, (h.rows row hmem).bound, ?_, ?_⟩
    · simp [History.observe]
    · intro row' hrow' hid
      rw [eq_of_id h.ids hrow' hmem hid]
      exact hown.1.1
    · intro t ht
      rw [observe_firstReply] at ht
      have hsome : (g.dated d row.ticket.id).isSome = true := by
        rw [show g.dated d row.ticket.id = some t from ht]
        rfl
      rw [h.dated_isSome hmem, hown.1.2] at hsome
      cases hsome
  | remove token =>
    simp only [Desk.step] at hstep
    split at hstep
    · cases hstep
      exact h.filter rfl rfl rfl fun _ _ => setJob_of_none
    · cases hstep
  | reply token ticketId replierId message =>
    simp only [Desk.step] at hstep
    split_ifs at hstep
    all_goals cases hstep
    all_goals apply h.setJob (fun _ _ => rfl)
    · intro job hjob
      cases hjob
    · rename_i hmessage
      intro job hjob
      obtain ⟨row, hrow, rfl⟩ := Option.map_eq_some_iff.mp hjob
      obtain ⟨hmem, -⟩ := row_eq_some hrow
      refine ⟨hmessage, ?_, ?_⟩
      · intro hreplied
        rw [observe_firstReply]
        exact (h.dated_isSome hmem).trans hreplied
      · intro hclosed
        rw [(h.rows row hmem).status] at hclosed
        by_contra hopen
        rw [if_neg hopen] at hclosed
        exact absurd hclosed (by decide)
  | answer token =>
    simp only [Desk.step] at hstep
    split at hstep
    · rename_i loaded replierId message hjob
      cases hstep
      obtain ⟨f, hrows, hf⟩ := h.answered hjob
      rw [hrows]
      refine h.kept rfl (List.Sublist.refl _) hf rfl ?_
      exact fun token' job hother => .inl ⟨setJob_of_none hother, rfl⟩
    · cases hstep
  | sweep ids =>
    cases hstep
    exact h.filter rfl rfl rfl fun _ _ h => h
  | register user =>
    simp only [Desk.step] at hstep
    split_ifs at hstep
    cases hstep
    refine @Inv.filter _ _ _ _ h (fun _ => true) ?_ rfl rfl fun _ _ h => h
    exact (List.filter_true _).symm
  | drop userId =>
    cases hstep
    exact h.filter rfl rfl rfl fun _ _ h => h
  | lost token =>
    cases hstep
    apply h.setJob (fun _ _ => rfl)
    intro job hjob
    cases hjob

/-- No tickets yet, and no requests. -/
def opened (users : List User) : Desk × History := (⟨users, [], 1, fun _ => none⟩, .empty)

theorem Inv.opened (users : List User) : Inv (opened users).1 (opened users).2 := by
  constructor
  · exact fun row hrow => absurd hrow List.not_mem_nil
  · exact .nil
  · exact .nil
  · intro id t ht
    cases ht
  · intro token job hjob
    cases hjob

theorem Inv.reached {users : List User} {p : Desk × History}
    (h : Reach (monitored (Desk.step lower) History.observe) always
      (TicketService.opened users) p) :
    Inv p.1 p.2 := by
  apply h.invariant (fun p => Inv p.1 p.2) (.opened users)
  intro p e q hinv _ hstep
  obtain ⟨hstep, hobserve⟩ := monitored_eq_some.mp hstep
  rw [hobserve]
  exact hinv.step hstep

/-- However requests interleave, two similar tickets of one author are there only when the later was
compared before the earlier was saved. -/
theorem similar_tickets_overlapped {users : List User} {p : Desk × History}
    (h : Reach (monitored (Desk.step lower) History.observe) always (opened users) p) :
    p.1.rows.Pairwise (Overlapped p.2) :=
  (Inv.reached h).overlapped

/-- Who takes away a ticket that is replied to: the staff, the deletion of its author or replier,
and its author when they asked before the first reply. -/
def Takes (d : Desk) (g : History) (row : Row) : Event → Prop
  | .sweep ids => row.ticket.id ∈ ids
  | .drop userId => row.ticket.authorId = some userId ∨ row.replierId = some userId
  | .remove token => ∃ userId, d.jobs token = some (.deleting row.ticket.id userId) ∧
      row.ticket.authorId = some userId ∧
      ∃ t, g.firstReply row.ticket.id = some t ∧ g.read token < t
  | _ => False

/-- However requests interleave, a ticket that is replied to is closed, and stays so with a reply
until it is taken away. -/
theorem replies_stay {users : List User} {p : Desk × History}
    (h : Reach (monitored (Desk.step lower) History.observe) always (opened users) p)
    (hstep : p.1.step lower e = some d') {row : Row} (hrow : row ∈ p.1.rows)
    (hreplied : Desk.isReplied row = true) :
    row.ticket.status = some "Closed" ∧
      (Takes p.1 p.2 row e ∨ ∃ row' ∈ d'.rows, Follows row row') := by
  have hinv := Inv.reached h
  have hok := hinv.rows row hrow
  constructor
  · rw [hok.status, hreplied, if_pos rfl]
  have hself : row ∈ d'.rows → Takes p.1 p.2 row e ∨ ∃ row' ∈ d'.rows, Follows row row' :=
    fun h => .inr ⟨row, h, .refl hok⟩
  cases e with
  | create token now request userId =>
    simp only [Desk.step] at hstep
    split_ifs at hstep
    cases hstep
    exact hself hrow
  | compare token =>
    simp only [Desk.step] at hstep
    split at hstep <;> cases hstep
    exact hself hrow
  | insert token =>
    simp only [Desk.step] at hstep
    split at hstep
    · split_ifs at hstep <;> cases hstep
      · exact hself (List.mem_append_left _ hrow)
      · exact hself hrow
    · cases hstep
  | delete token ticketId userId =>
    simp only [Desk.step] at hstep
    split_ifs at hstep
    cases hstep
    exact hself hrow
  | remove token =>
    simp only [Desk.step] at hstep
    split at hstep
    · rename_i id userId hjob
      cases hstep
      by_cases hid : row.ticket.id = id
      · subst hid
        obtain ⟨-, -, hauthor, hread⟩ := hinv.jobs token _ hjob
        obtain ⟨t, ht⟩ := Option.isSome_iff_exists.mp (hok.reply.trans hreplied)
        exact .inl ⟨userId, hjob, hauthor row hrow rfl, t, ht, hread t ht⟩
      · exact hself (List.mem_filter.mpr ⟨hrow, decide_eq_true hid⟩)
    · cases hstep
  | reply token ticketId replierId message =>
    simp only [Desk.step] at hstep
    split_ifs at hstep <;> cases hstep
    · exact hself hrow
    · exact hself hrow
  | answer token =>
    simp only [Desk.step] at hstep
    split at hstep
    · rename_i loaded replierId message hjob
      cases hstep
      obtain ⟨f, hrows, hf⟩ := hinv.answered hjob
      refine .inr ⟨f row, ?_, hf row hrow⟩
      rw [hrows]
      exact List.mem_map_of_mem hrow
    · cases hstep
  | sweep ids =>
    cases hstep
    by_cases hid : row.ticket.id ∈ ids
    · exact .inl hid
    · exact hself (List.mem_filter.mpr ⟨hrow, decide_eq_true hid⟩)
  | register user =>
    simp only [Desk.step] at hstep
    split_ifs at hstep
    cases hstep
    exact hself hrow
  | drop userId =>
    cases hstep
    by_cases htaken : row.ticket.authorId = some userId ∨ row.replierId = some userId
    · exact .inl htaken
    · exact hself (List.mem_filter.mpr ⟨hrow, decide_eq_true (not_or.mp htaken)⟩)
  | lost token =>
    cases hstep
    exact hself hrow

end Invariant

/-- Two requests of one contestant at once. -/
def twice : List Event :=
  let request : CreateTicketRequest := ⟨some "Web", some "Error", some "It is down", none⟩
  [.create 0 0 (some request) 1, .create 1 0 (some request) 1, .compare 0, .compare 1, .insert 0,
    .insert 1]

def contestant : List User := [⟨1, some "ada", none⟩, ⟨2, some "staff", none⟩]

theorem similar_tickets_overlapped_twice : ∃ p : Desk × History, p.1.rows.length = 2 ∧
    p.1.rows.Pairwise (Overlapped p.2) := by
  obtain ⟨p, hreach, hp⟩ := exists_reach_of_exec
    (monitored (Desk.step String.toLower) History.observe) always (opened contestant) twice
    (p := fun p => p.1.rows.length == 2) (meets_always _ _ _) (by decide +kernel)
  exact ⟨p, beq_iff_eq.mp hp, similar_tickets_overlapped hreach⟩

/-- The author asks to delete the ticket, and the reply comes in between. -/
def crossed : List Event :=
  let request : CreateTicketRequest := ⟨some "Web", some "Error", some "It is down", none⟩
  [.create 0 0 (some request) 1, .compare 0, .insert 0, .delete 3 1 1, .reply 4 1 2 "It is up",
    .answer 4]

theorem replies_stay_crossed : ∃ (p : Desk × History) (row : Row), row ∈ p.1.rows ∧
    Desk.isReplied row = true ∧ row.ticket.status = some "Closed" ∧
      (Takes p.1 p.2 row (.remove 3) ∨ ∃ row' ∈ p.1.rows.filter fun row => row.ticket.id ≠ 1,
        Follows row row') := by
  obtain ⟨p, hreach, hp⟩ := exists_reach_of_exec
    (monitored (Desk.step String.toLower) History.observe) always (opened contestant) crossed
    (p := fun p => p.1.rows.any Desk.isReplied && p.1.jobs 3 == some (.deleting 1 1))
    (meets_always _ _ _) (by decide +kernel)
  obtain ⟨hany, hjob⟩ := (Bool.and_eq_true _ _).mp hp
  obtain ⟨row, hrow, hreplied⟩ := List.any_eq_true.mp hany
  have hstep : p.1.step String.toLower (.remove 3) = some { p.1.setJob 3 none with
      rows := p.1.rows.filter fun row => row.ticket.id ≠ 1 } := by
    simp only [Desk.step, beq_iff_eq.mp hjob]
  exact ⟨p, row, hrow, hreplied, replies_stay hreach hstep hrow hreplied⟩

end Fctf.TicketService
