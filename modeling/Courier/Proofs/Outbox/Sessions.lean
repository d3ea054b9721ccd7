import Courier.Proofs.Crew.Basic
import Courier.Proofs.Outbox.History

/-!
# The rows are what the history says

Every operation keeps the rows as the history says, which its answer is added to. So along every run
of operations they can be told from the answers.
-/

namespace Courier.Outbox

open Calendar (Instant Moment)

/-! ## Serving an operation -/

theorem Cell.ofParameter_index {i : Nat} {v : Value} {cell : Cell} (h : ofParameter i v = .ok cell)
    (j : Nat) : ofParameter j v = .ok cell := by
  cases v <;> first | exact h | cases h

/-- A created row shows the draft, and nothing happened to it. -/
theorem Store.create_shows {s s' : Store} {now : Instant} {draft : Draft} {id : Int}
    (h : create now draft s = .ok (id, s')) :
    ∃ row, s' = s.insertLast row ∧ row.id = id ∧ s.lastId < row.id ∧ row.Shows now draft ∧
      row.attempts = 0 ∧ row.Notes [] ∧ row.claimedAt = none ∧ row.lastError = none := by
  simp only [create, draftRow, bind_eq_ok] at h
  obtain ⟨t, ht, _, -, items, hitems, row, hrow, _, -, h⟩ := h
  obtain ⟨automationId, hautomation, title, htitle, body, hbody, titleText, htitleText, bodyText,
    hbodyText, hrow⟩ := hrow
  cases h
  have htext {column text : String} {cell : Cell}
      (h : cell.requireText rowTable column = .ok text) : cell.toText? = some text := by
    unfold Cell.requireText at h
    split at h
    · cases h
      assumption
    · cases h
  cases hrow
  refine ⟨_, rfl, rfl, Int.lt_add_one_of_le (Int.le_refl _), ?_, rfl, ?_, rfl, rfl⟩
  · exact ⟨rfl, ⟨automationId, hautomation, rfl⟩, ⟨title, htitle, htext htitleText⟩,
      ⟨body, hbody, htext hbodyText⟩, ⟨items, hitems, rfl⟩, ⟨t, utc?_of_instantOf ht, rfl⟩⟩
  · exact loadList_write_texts []

namespace History
variable {s : Store} {log : History}

theorem Follows.create (h : Follows s log) {now : Instant} {draft : Draft} {id : Int} {s' : Store}
    (hok : Store.create now draft s = .ok (id, s')) :
    Follows s' (.created id now draft :: log) := by
  obtain ⟨row, rfl, rfl, hid, hshows, hattempts, hdelivered, hclaimedAt, hlastError⟩ :=
    Store.create_shows hok
  exact h.insert hid hshows hattempts hdelivered hclaimedAt hlastError

theorem Follows.claim (h : Follows s log) {id : Int} {now : Moment} {lease : Lease}
    {granted : Bool} {s' : Store} (hok : Store.claim id now lease s = .ok (granted, s')) :
    Follows s' (.claimed id now granted :: log) := by
  obtain ⟨t, cutoff, ht, hcutoff, hadmits⟩ := Store.claim_given hok
  rw [Store.claim_eq h.wellNumbered ht hcutoff hadmits] at hok
  cases hok
  split
  · rename_i hgranted
    rw [hgranted]
    apply h.modify (Row.keepsId_claimed t.text) rfl rfl (fun _ => rfl)
    intro r _ htells
    apply htells.cons (Answered.createdId?_ne rfl id)
    · exact fun _ _ hdraft => hdraft.other_columns
    · exact (Int.add_zero _).symm
    · exact fun _ hdelivered => hdelivered
    · simp [Answered.claim?, ht, Row.claimed]
    · rfl
  · rename_i hgranted
    rw [Bool.not_eq_true] at hgranted
    rw [hgranted]
    exact h.unchanged rfl (fun k => ⟨Answered.createdId?_ne rfl k, rfl, rfl, rfl, rfl⟩) fun _ => rfl

theorem Follows.unclaim (h : Follows s log) {id : Int} {u : Unit} {s' : Store}
    (hok : Store.unclaim id s = .ok (u, s')) : Follows s' (.unclaimed id :: log) := by
  rw [Store.unclaim_of_admits (Store.admits_of_checks hok)] at hok
  cases hok
  apply h.modify Row.keepsId_freed rfl rfl (fun _ => rfl)
  intro r _ htells
  apply htells.cons (Answered.createdId?_ne rfl id)
  · exact fun _ _ hdraft => hdraft.other_columns
  · exact (Int.add_zero _).symm
  · exact fun _ hdelivered => hdelivered
  · simp [Answered.claim?, Row.freed]
  · rfl

theorem Follows.mark (h : Follows s log) {id : Int} {recipient : String} {u : Unit} {s' : Store}
    (hok : Store.mark id (.text recipient) s = .ok (u, s')) :
    Follows s' (.marked id recipient :: log) := by
  obtain ⟨hnone, rfl⟩ | ⟨r, delivered, hr, hdelivered, rfl⟩ := Store.mark_ok h.wellNumbered hok
  · apply h.of_not_created rfl h.wellNumbered rfl
    intro k
    have hagrees := h.agrees k
    by_cases hk : k = id
    · subst hk
      rw [hnone] at hagrees ⊢
      refine ⟨?_, fun _ hr => nomatch hr⟩
      rw [isPresent_cons (Answered.createdId?_ne rfl k), ← hagrees.present]
      rfl
    · exact hagrees.of_quiet (Answered.quiet_of_id fun he => hk (Option.some.inj he).symm) rfl
  · apply h.modify (Row.keepsId_noted delivered recipient) rfl rfl (fun _ => rfl)
    intro r' hr' htells
    cases hr.symm.trans hr'
    apply htells.cons (Answered.createdId?_ne rfl id)
    · intro now draft hdraft
      unfold Row.noted
      split
      · exact hdraft
      · exact hdraft.other_columns
    · rw [Row.attempts_noted]
      exact (Int.add_zero _).symm
    · intro shown hshown
      cases hdelivered.symm.trans hshown
      simpa [Answered.recipient?] using Row.notes_noted hdelivered recipient
    · unfold Row.noted
      split <;> rfl
    · unfold Row.noted
      split <;> rfl

theorem Follows.complete (h : Follows s log) {id : Int} {u : Unit} {s' : Store}
    (hok : Store.complete id s = .ok (u, s')) : Follows s' (.completed id :: log) := by
  rw [Store.complete_of_admits (Store.admits_of_checks hok)] at hok
  cases hok
  apply h.remove rfl fun k => ⟨Answered.createdId?_ne rfl k, rfl, rfl, rfl, rfl⟩
  intro k r hr _
  rw [deletes, Store.id_of_find? hr]

theorem Follows.release (h : Follows s log) {id : Int} {errorText : String} {n : Int} {s' : Store}
    (hok : Store.release id errorText s = .ok (n, s')) :
    Follows s' (.released id errorText n :: log) := by
  rw [Store.release_of_admits (Store.admits_of_checks hok)] at hok
  cases hok
  apply h.modify (Row.keepsId_failed errorText) rfl rfl (fun _ => rfl)
  intro r _ htells
  apply htells.cons (Answered.createdId?_ne rfl id)
  · exact fun _ _ hdraft => hdraft.other_columns
  · simp [Answered.isRelease, Row.failed]
  · exact fun _ hdelivered => hdelivered
  · simp [Answered.claim?, Row.failed]
  · simp [Answered.errorText?, Row.failed]

theorem Follows.cancel (h : Follows s log) {id : Int} {deleted : Bool} {s' : Store}
    (hok : Store.cancel id s = .ok (deleted, s')) : Follows s' (.cancelled id deleted :: log) := by
  obtain rfl := Store.cancel_ok hok
  apply h.remove rfl fun k => ⟨Answered.createdId?_ne rfl k, rfl, rfl, rfl, rfl⟩
  intro k r hr htells
  rw [deletes, Store.id_of_find? hr, htells.claimedAt]

theorem Follows.cancelAll (h : Follows s log) {automationId : Value} {number : Nat} {s' : Store}
    (hok : Store.cancelAll automationId s = .ok (number, s')) :
    Follows s' (.cancelledAll automationId number :: log) := by
  simp only [Store.cancelAll, bind_eq_ok] at hok
  obtain ⟨_, -, key, hkey, hok⟩ := hok
  cases hok
  apply h.remove rfl fun k => ⟨Answered.createdId?_ne rfl k, rfl, rfl, rfl, rfl⟩
  intro k r hr htells
  obtain ⟨now, draft, horigin, hdraft⟩ := htells.origin
  obtain ⟨cell, hcell, hautomation⟩ := hdraft.automationId
  simp [deletes, horigin, Draft.belongsTo, Cell.ofParameter_index hcell 1, hkey, hautomation,
    htells.claimedAt]

theorem Follows.note (h : Follows s log) {α : Type} {operation : Operation α}
    {told : α → Answered} {a : Answered} {s' : Store}
    (hserve : Command.note operation told s = (a, s'))
    (hok : ∀ b s', operation s = .ok (b, s') → Follows s' (told b :: log)) :
    Follows s' (a :: log) := by
  obtain ⟨cause, rfl, rfl⟩ | ⟨b, hb, rfl⟩ := Command.note_cases hserve
  · exact h.unchanged rfl (fun k => ⟨Answered.createdId?_ne rfl k, rfl, rfl, rfl, rfl⟩) fun _ => rfl
  · exact hok b s' hb

theorem Follows.serve (h : Follows s log) {command : Command} {a : Answered} {s' : Store}
    (hserve : command.serve s = (a, s')) : Follows s' (a :: log) := by
  cases command with
  | create now draft => exact h.note hserve fun _ _ => h.create
  | claim id now lease => exact h.note hserve fun _ _ => h.claim
  | unclaim id => exact h.note hserve fun _ _ => h.unclaim
  | mark id recipient => exact h.note hserve fun _ _ => h.mark
  | complete id => exact h.note hserve fun _ _ => h.complete
  | release id errorText => exact h.note hserve fun _ _ => h.release
  | cancel id => exact h.note hserve fun _ _ => h.cancel
  | cancelAll automationId => exact h.note hserve fun _ _ => h.cancelAll

/-- Operations on a single message leave the others. -/
theorem others_of_serve (hs : s.WellNumbered) {command : Command} {a : Answered} {s' : Store}
    (hserve : command.serve s = (a, s')) {id : Int} (hid : a.id? = some id) {k : Int}
    (hk : k ≠ id) : s'.find? k = s.find? k := by
  have hmodify {change : Row → Row} (hkeeps : Store.KeepsId change) :
      (s.modify id change).find? k = s.find? k := by
    rw [Store.find?_modify hkeeps, if_neg hk]
  have hremove {p : Row → Bool} (hp : ∀ r, r.id ≠ id → p r = false) :
      (s.remove p).find? k = s.find? k := by
    rw [Store.find?_remove hs]
    cases hr : s.find? k with
    | none => rfl
    | some r => simp [hp r (Store.id_of_find? hr ▸ hk)]
  cases command <;> obtain ⟨cause, rfl, rfl⟩ | ⟨b, hok, rfl⟩ := Command.note_cases hserve <;>
    cases hid
  case create.inr now draft =>
    obtain ⟨row, rfl, rfl, hlt, -⟩ := Store.create_shows hok
    rw [Store.find?_insertLast hs hlt, if_neg hk]
  case claim.inr now lease =>
    obtain ⟨t, cutoff, ht, hcutoff, hadmits⟩ := Store.claim_given hok
    rw [Store.claim_eq hs ht hcutoff hadmits] at hok
    cases hok
    split
    · exact hmodify (Row.keepsId_claimed t.text)
    · rfl
  case unclaim.inr =>
    rw [Store.unclaim_of_admits (Store.admits_of_checks hok)] at hok
    cases hok
    exact hmodify Row.keepsId_freed
  case mark.inr recipient =>
    obtain ⟨-, rfl⟩ | ⟨r, delivered, -, -, rfl⟩ := Store.mark_ok hs hok
    · rfl
    · exact hmodify (Row.keepsId_noted delivered recipient)
  case complete.inr =>
    rw [Store.complete_of_admits (Store.admits_of_checks hok)] at hok
    cases hok
    exact hremove fun r hr => by simp [hr]
  case release.inr errorText =>
    rw [Store.release_of_admits (Store.admits_of_checks hok)] at hok
    cases hok
    exact hmodify (Row.keepsId_failed errorText)
  case cancel.inr =>
    obtain rfl := Store.cancel_ok hok
    exact hremove fun r hr => by simp [hr]

/-- A release is answered with the number of releases so far, or with 0 if there is no such
message. -/
theorem Follows.released (h : Follows s log) {command : Command} {id : Int} {errorText : String}
    {n : Int} {s' : Store} (hserve : command.serve s = (.released id errorText n, s')) :
    n = if log.isPresent id then releases id (.released id errorText n :: log) else (0 : Nat) := by
  cases command <;> obtain ⟨cause, ha, -⟩ | ⟨b, hok, ha⟩ := Command.note_cases hserve <;> cases ha
  rw [Store.release_of_admits (Store.admits_of_checks hok)] at hok
  cases hok
  have hagrees := h.agrees id
  rw [Store.find?_modify_self (Row.keepsId_failed errorText), ← hagrees.present,
    releases_cons (Answered.createdId?_ne rfl id)]
  cases hr : s.find? id with
  | none => rfl
  | some r =>
    simp [Row.failed, (hagrees.tells r hr).attempts, Answered.isRelease]

end History

/-! ## Reading a message -/

theorem Cell.toInt?_of_ofParameter {i : Nat} {n : Option Int} {cell : Cell}
    (h : ofParameter i (.ofOptionInt n) = .ok cell) : cell.toInteger.toInt? = .ok n := by
  cases n with
  | none =>
    cases h
    rfl
  | some n =>
    simp only [Value.ofOptionInt, ofParameter] at h
    split at h
    · cases h
      rfl
    · cases h

theorem Row.Shows.pending {r : Row} {now t : Instant} {automationId : Option Int}
    {title body : String} {recipients delivered : List String} {scheduledAt : Moment}
    (h : r.Shows now (textDraft automationId title body recipients scheduledAt))
    (ht : scheduledAt.utc? = some t) (hdelivered : r.Notes delivered) :
    r.pending = .ok
      { id := r.id
        createdAt := now.text
        automationId, title, body, recipients, delivered
        scheduledAt := t.text
        claimedAt := r.claimedAt
        attempts := r.attempts
        lastError := r.lastError } := by
  obtain ⟨cell, hcell, hautomation⟩ := h.automationId
  obtain ⟨_, htitleCell, htitle⟩ := h.title
  obtain ⟨_, hbodyCell, hbody⟩ := h.body
  obtain ⟨items, hitems, hrecipients⟩ := h.recipients
  obtain ⟨t', ht', hscheduled⟩ := h.scheduledAt
  cases htitleCell
  cases hbodyCell
  cases hitems
  cases ht.symm.trans ht'
  have hautomationId : r.automationId.toInt? = .ok automationId :=
    hautomation.symm ▸ Cell.toInt?_of_ofParameter hcell
  have hdelivered' : loadList r.deliveredJson = .ok delivered := hdelivered
  have htitle : title = r.title := Option.some.inj htitle
  have hbody : body = r.body := Option.some.inj hbody
  simp only [Row.pending, hautomationId, hrecipients, loadList_write_texts, hdelivered', bind,
    Except.bind, h.createdAt, hscheduled, htitle, hbody]
  rfl

namespace History.Agrees
variable {s : Store} {log : History} {id : Int}

theorem get?_absent (h : log.Agrees id (s.find? id)) (hs : s.Admits id)
    (hpresent : log.isPresent id = false) : s.get? id = .ok none := by
  have hnone : s.find? id = none := by
    rw [← Option.not_isSome_iff_eq_none, h.present, hpresent]
    exact Bool.false_ne_true
  rw [Store.get?, Store.checks_of_admits hs, hnone]
  rfl

/-- A message that was created of texts can be read, and it is as the history tells. -/
theorem get?_texts (h : log.Agrees id (s.find? id)) (hs : s.Admits id)
    (hpresent : log.isPresent id = true) {now t : Instant} {automationId : Option Int}
    {title body : String} {recipients : List String} {scheduledAt : Moment}
    (horigin : log.origin? id =
      some (now, textDraft automationId title body recipients scheduledAt))
    (ht : scheduledAt.utc? = some t) :
    s.get? id = .ok (some
      { id
        createdAt := now.text
        automationId, title, body, recipients
        delivered := log.recipients id
        scheduledAt := t.text
        claimedAt := log.claimedAt id
        attempts := log.releases id
        lastError := log.lastError id }) := by
  rw [← h.present, Option.isSome_iff_exists] at hpresent
  obtain ⟨r, hr⟩ := hpresent
  have htells := h.tells r hr
  obtain ⟨now', draft, horigin', hshows⟩ := htells.origin
  cases horigin.symm.trans horigin'
  rw [Store.get?, Store.checks_of_admits hs, hr]
  simp only [hshows.pending ht htells.delivered, Store.id_of_find? hr, htells.claimedAt,
    htells.attempts, htells.lastError]
  rfl

end History.Agrees

/-! ## Runs of operations -/

/-- A store and what was answered so far. -/
structure Session where
  store : Store
  log : History

namespace Session

def serve (session : Session) (command : Command) : Session :=
  let (answer, store) := command.serve session.store
  ⟨store, answer :: session.log⟩

def after (session : Session) (commands : List Command) : Session :=
  commands.foldl serve session

theorem after_cons (session : Session) (command : Command) (commands : List Command) :
    session.after (command :: commands) = (session.serve command).after commands :=
  rfl

theorem follows_serve {session : Session} (h : History.Follows session.store session.log)
    (command : Command) :
    History.Follows (session.serve command).store (session.serve command).log :=
  h.serve rfl

theorem follows_after {session : Session} (h : History.Follows session.store session.log)
    (commands : List Command) :
    History.Follows (session.after commands).store (session.after commands).log := by
  induction commands generalizing session with
  | nil => exact h
  | cons command commands ih => exact ih (follows_serve h command)

/-- The draft and the time of a message never change. -/
theorem origin?_after {session : Session} (h : History.Follows session.store session.log)
    {id : Int} {origin : Instant × Draft} (horigin : session.log.origin? id = some origin)
    (commands : List Command) : (session.after commands).log.origin? id = some origin := by
  induction commands generalizing session with
  | nil => exact horigin
  | cons command commands ih =>
    have hserved := follows_serve h command
    exact ih hserved (hserved.origin?_kept horigin)

/-- Whatever is asked of a store without rows, one operation after another: the numbers given to
messages increase, and each row is there and is as the answers tell. One more operation changes at
most the message that its answer is about, and nothing if it is refused; a release is answered with
the number of releases. -/
theorem store_follows_history {s : Store} (hs : s.rows = []) (commands : List Command)
    (command : Command) :
    let session := after ⟨s, []⟩ commands
    let answer := (command.serve session.store).1
    let next := (command.serve session.store).2
    (session.log.filterMap Answered.createdId?).Pairwise (· > ·) ∧
      (∀ id, session.log.Agrees id (session.store.find? id)) ∧
      (∀ id, answer.id? = some id → ∀ k ≠ id, next.find? k = session.store.find? k) ∧
      (∀ cause, answer = .refused cause → next = session.store) ∧
      ∀ id errorText n, answer = .released id errorText n →
        n = if session.log.isPresent id then History.releases id (answer :: session.log)
          else (0 : Nat) := by
  intro session answer next
  have hfollows : History.Follows session.store session.log :=
    follows_after (History.Follows.of_no_rows hs) commands
  have hserve : command.serve session.store = (answer, next) := rfl
  refine ⟨hfollows.increasing, hfollows.agrees, ?_, ?_, ?_⟩
  · intro id hid k hk
    exact History.others_of_serve hfollows.wellNumbered hserve hid hk
  · intro cause hcause
    rw [hcause] at hserve
    exact Command.serve_refused hserve
  · intro id errorText n hanswer
    rw [hanswer] at hserve ⊢
    exact hfollows.released hserve

def hello : Draft :=
  textDraft none "Hello" "See you at five." ["ann", "ben", "cy"] (.ofInstant Crew.noon)

/-- Two messages. The second one is cancelled; the first one reached two recipients before it failed,
and it cannot be cancelled while it is claimed once more. -/
def busyDay : List Command :=
  [.create Crew.noon hello,
    .create Crew.noon (textDraft (some 7) "Hello" "See you at six." ["ann"]
      (.ofInstant Crew.oneOClock)),
    .claim 1 (.ofInstant Crew.noon) .none, .mark 1 "ben", .mark 1 "ann", .mark 1 "ben",
    .release 1 "down", .cancelAll (.int 7), .release 2 "too late", .mark 9223372036854775808 "ann",
    .claim 1 (.ofInstant Crew.oneOClock) .none, .cancel 1]

theorem store_follows_history_busyDay :
    Store.empty.rows = [] ∧
      let session := after ⟨Store.empty, []⟩ busyDay
      session.store.get? 2 = .ok none ∧
        session.store.get? 1 = .ok (some
          { id := 1
            createdAt := Crew.noon.text
            automationId := none
            title := "Hello"
            body := "See you at five."
            recipients := ["ann", "ben", "cy"]
            delivered := ["ben", "ann"]
            scheduledAt := Crew.noon.text
            claimedAt := some Crew.oneOClock.text
            attempts := 1
            lastError := some "down" }) := by
  refine ⟨rfl, ?_⟩
  intro session
  have hagrees : ∀ id, session.log.Agrees id (session.store.find? id) :=
    (store_follows_history rfl busyDay (.cancel 1)).2.1
  have hopen : session.store.closed = false := by decide +kernel
  have hsession : session = ((⟨Store.empty, []⟩ : Session).serve (.create Crew.noon hello)).after _ :=
    after_cons ..
  have horigin : session.log.origin? 1 = some (Crew.noon, hello) := by
    rw [hsession]
    exact origin?_after (follows_serve (History.Follows.of_no_rows rfl) _) rfl _
  have ht : (Moment.ofInstant Crew.noon).utc? = some Crew.noon := by decide +kernel
  have hdelivered : session.log.recipients 1 = ["ben", "ann"] := by decide +kernel
  have hclaimed : session.log.claimedAt 1 = some Crew.oneOClock.text := by decide +kernel
  have hreleases : session.log.releases 1 = 1 := by decide +kernel
  have herror : session.log.lastError 1 = some "down" := by decide +kernel
  have habsent : session.log.isPresent 2 = false := by decide +kernel
  have hpresent : session.log.isPresent 1 = true := by decide +kernel
  clear_value session
  constructor
  · exact (hagrees 2).get?_absent ⟨hopen, rfl⟩ habsent
  · rw [(hagrees 1).get?_texts ⟨hopen, rfl⟩ hpresent horigin ht, hdelivered, hclaimed, hreleases,
      herror]
    rfl

end Session

end Courier.Outbox
