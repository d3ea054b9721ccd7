import Courier.Proofs.Crew.Aftermath
import Courier.Proofs.Crew.Retries
import Courier.Proofs.Outbox.Completion
import Courier.Proofs.Script.Effects

/-!
# Messages arrive

The first sweep that begins at the time of a message or later claims it and calls the messenger for it,
unless other sweeps act meanwhile or a call is cancelled; and it comes to its end, whatever the
messenger answers. Before that time nobody calls the messenger for the message.
-/

namespace Courier.Outbox

open Calendar (Instant)
open Message (Payload)

/-! ## Runs that store texts -/

/-- What the turn stores is a message of texts. -/
def Turn.Typed : Turn → Prop
  | create draft => ∃ (automationId : Option Int) (recipients : List String),
      draft.automationId = .ofOptionInt automationId ∧ draft.recipients = .list (recipients.map .text)
  | dispatch _ _ automationId => ∃ n : Option Int, automationId = .ofOptionInt n
  | _ => True

namespace Crew

theorem legible_turn {c : Crew} (hc : c.store.WellNumbered) (h : c.store.Legible) {t : Turn}
    (ht : t.Typed) : (c.turn t).store.Legible := by
  have hperform {α : Type} (operation : Operation α)
      (hkeeps : ∀ a st, operation c.store = .ok (a, st) → st.Legible) :
      (c.perform operation).store.Legible := by
    rcases perform_cases operation c with he | ⟨a, st, hok, he⟩
    · rw [he]
      exact h
    · rw [he]
      exact hkeeps a st hok
  cases t with
  | setClock | join => exact h
  | create draft =>
    obtain ⟨automationId, recipients, hautomation, hrecipients⟩ := ht
    refine hperform _ fun id st hok => ?_
    obtain ⟨row, rfl, hid, hrow⟩ := Store.create_legible hautomation hrecipients hok
    exact h.insertLast hc hrow hid
  | dispatch payload delay automationId =>
    obtain ⟨n, rfl⟩ := ht
    rw [turn, dispatch]
    split
    · rename_i result d hplan
      obtain ⟨draft, id, hautomation, -, -, hrecipients, -, hcreate⟩ := plan_draft hplan
      obtain ⟨row, hst, hid, hrow⟩ := Store.create_legible hautomation hrecipients hcreate
      change d.store.Legible
      rw [hst]
      exact h.insertLast hc hrow hid
    · exact h
  | cancel id =>
    refine hperform _ fun b st hok => ?_
    rw [Store.cancel_ok hok]
    exact h.remove _
  | cancelAll automationId =>
    refine hperform _ fun n st hok => ?_
    obtain ⟨key, rfl⟩ := Store.cancelAll_ok hok
    exact h.remove _
  | advance i =>
    rw [turn, act]
    split
    · exact h
    · exact h.step (Sweep.advance_step hc)
  | answer i answer =>
    rw [turn, act]
    split
    · exact h
    · rename_i s _
      change (s.answered answer c.desk).1.store.Legible
      rw [Sweep.answered_store]
      exact h

theorem legible_after {c : Crew} (hc : c.store.WellNumbered) (h : c.store.Legible) {ts : List Turn}
    (hts : ∀ t ∈ ts, t.Typed) : (c.after ts).store.Legible := by
  induction ts generalizing c with
  | nil => exact h
  | cons t ts ih =>
    have hturn := legible_turn hc h (hts t List.mem_cons_self)
    exact ih ((turn_step hc t).wellNumbered hc) hturn fun u hu => hts u (List.mem_cons_of_mem t hu)

/-! ## Until the first sweep -/

/-- Nobody knows of the message, and its row, while it is there, is as it was stored. -/
structure Unheard (id : Int) (t₀ : Instant) (row : Row) (c : Crew) : Prop where
  punctual : c.Punctual id t₀
  unknown : ¬ c.Knows id
  row : ∀ r, c.store.find? id = some r → r = row

/-- A sweep begins before the time. -/
def BeginsBefore (t₀ : Instant) (c : Crew) : Turn → Prop
  | .join _ _ => c.desk.now < t₀
  | _ => True

section unheard
variable {c : Crew} {id : Int} {t₀ : Instant} {row : Row}

/-- While nobody knows of a message, its row stays as it is. -/
theorem row_of_unknown (hc : c.store.WellNumbered) (hgiven : id ≤ c.store.lastId)
    (hunknown : ¬ c.Knows id) {t : Turn} {r : Row} (hr : (c.turn t).store.find? id = some r) :
    c.store.find? id = some r := by
  have hrow := (turn_step hc t).row hc id
  rw [hr] at hrow
  generalize c.store.find? id = o at hrow
  cases hrow with
  | kept => rfl
  | stored _ _ hnew => omega
  | @touched i s _ _ _ hs htouch =>
    have hs' : ¬ s.Knows id := fun hknows => hunknown ⟨s, List.mem_of_getElem? hs, hknows⟩
    refine (htouch.eq_of_not_holding (fun hholding => ?_) fun hclaims => ?_).symm
    · exact hs' (Sweep.knows_of_holding hholding)
    · exact hs' (Sweep.knows_of_claims hclaims)

theorem Unheard.turn (h : c.Unheard id t₀ row) {t : Turn} (ht : c.OnTime t)
    (hbefore : c.BeginsBefore t₀ t) : (c.turn t).Unheard id t₀ row where
  punctual := h.punctual.turn ht
  unknown hknows := by
    rcases knows_turn h.punctual.wellNumbered hknows with hknown | ⟨policy, now, rfl, -⟩
    · exact h.unknown hknown
    · have hle : t₀ ≤ c.desk.now := (h.punctual.turn ht).knows hknows
      exact Nat.not_lt.mpr hle hbefore
  row r hr := h.row r (row_of_unknown h.punctual.wellNumbered h.punctual.given h.unknown hr)

theorem Unheard.after (h : c.Unheard id t₀ row) {ts : List Turn} (hts : c.Throughout OnTime ts)
    (hbefore : c.Throughout (BeginsBefore t₀) ts) : (c.after ts).Unheard id t₀ row := by
  induction ts generalizing c with
  | nil => exact h
  | cons t ts ih => exact ih (h.turn hts.1 hbefore.1) hts.2 hbefore.2

/-- Nobody heard yet of a message that was stored just now. -/
theorem unheard_stored (hc : c.IsFresh) (before : List Turn) {t : Turn}
    (hstore : ((c.after before).turn t).store = (c.after before).store.insertLast row)
    (hnew : row.id = (c.after before).store.lastId + 1) (hscheduled : row.scheduledAt = t₀.text) :
    ((c.after before).turn t).Unheard row.id t₀ row := by
  have hwell := wellNumbered_after hc.wellNumbered before
  have hlast : ((c.after before).turn t).store.lastId = row.id := congrArg Store.lastId hstore
  have hunknown : ¬ ((c.after before).turn t).Knows row.id := by
    intro h
    rcases knows_turn hwell h with hknows | ⟨_, _, rfl, -⟩
    · have hle := knows_le_lastId hc before hknows
      omega
    · change (c.after before).store.lastId = row.id at hlast
      omega
  have hrow (r : Row) (hr : ((c.after before).turn t).store.find? row.id = some r) : r = row := by
    rw [hstore, Store.find?_insertLast hwell (by omega), if_pos rfl] at hr
    exact (Option.some.inj hr).symm
  refine ⟨⟨(turn_step hwell t).wellNumbered hwell, ?_, ?_, fun h => absurd h hunknown⟩, hunknown, hrow⟩
  · exact Int.le_of_eq hlast.symm
  · intro r hr
    rw [hrow r hr]
    exact hscheduled

end unheard

end Crew

/-! ## The way to the first call -/

namespace Sweep

/-- If the sweep takes the message, this is its first call. -/
def Starts (id : Int) (payload : Payload) (s : Sweep) : Prop :=
  ∀ p ∈ s.due, p.id = id →
    ∃ x rest, p.remaining = x :: rest ∧ payload = ⟨.text p.title, .text p.body, [x]⟩

/-- How far the sweep came with a message that nobody holds when it begins. -/
inductive Reaches (s : Sweep) (id : Int) (payload : Payload) (o : Option Row) (called : Prop) : Prop where
  | ahead (h : s.Attends id o False) (hstarts : s.Starts id payload)
  | calling {p : Pending} {x : String} {rest receipts : List String}
    (hact : s.activity = .sending p x rest receipts) (hid : p.id = id)
    (hpayload : s.request? = some payload)
  | called (h : called)

section reaches
variable {s s' : Sweep} {id : Int} {payload : Payload} {called called' : Prop}

theorem Reaches.mono {o : Option Row} (h : s.Reaches id payload o called) (hle : called → called') :
    s.Reaches id payload o called' := by
  cases h with
  | ahead h hstarts => exact .ahead h hstarts
  | calling hact hid hpayload => exact .calling hact hid hpayload
  | called h => exact .called (hle h)

/-- With the claim of the message its first call begins. -/
theorem Reaches.step {d : Desk} {st' : Store} (h : s.Reaches id payload (d.store.find? id) called)
    (hst : d.store.WellNumbered) (hstep : s.Step d s' st') (hs' : s' = (s.advance d).2) :
    s'.Reaches id payload (st'.find? id) called := by
  cases h with
  | ahead h hstarts =>
    by_cases hclaims : s.claims? d = some id
    · obtain ⟨p, due, _, _, _, -, hdue, hid, -, -, -, -, rfl, -⟩ := hstep.of_claims hclaims
      obtain ⟨x, rest, hremaining, rfl⟩ := hstarts p (by simp [hdue]) hid
      rw [hremaining]
      exact .calling rfl hid rfl
    · refine .ahead ((h.step hst hstep hs').mono ?_) fun p hp => hstarts p (hstep.due_suffix.subset hp)
      rintro (hfalse | hclaims')
      · exact hfalse
      · exact hclaims hclaims'
  | calling hact hid hpayload =>
    obtain ⟨rfl, -⟩ := hstep.of_not_busy (by rw [isBusy, hact])
    exact .calling hact hid hpayload
  | called h => exact .called h

/-- A sweep that no failure ended does not end before that call is answered. -/
theorem Reaches.called_of_ended {o : Option Row} (h : s.Reaches id payload o called) (hsound : s.Sound)
    {f : Option Failure} (hact : s.activity = .ended f) : called := by
  cases h with
  | ahead h =>
    cases h with
    | ahead _ _ hlive =>
      cases f with
      | none => exact absurd hact hlive
      | some f => exact absurd hact (hsound.intact f)
    | begun hfalse => exact hfalse.elim
    | broken f hbroken => exact absurd hbroken (hsound.intact f)
  | calling hsending => cases hact.symm.trans hsending
  | called h => exact h

end reaches

end Sweep

namespace Crew

/-- A sweep claims the message, and calls the messenger for it. -/
structure Delivers (c : Crew) (ts : List Turn) (i : Nat) (id : Int) (payload : Payload) : Prop where
  claimed : (i, id) ∈ c.along claim? ts
  called : ∃ answer, ⟨i, id, payload, answer⟩ ∈ c.along call? ts

/-- The sweep at a place is over. -/
def HasEnded (i : Nat) (c : Crew) : Prop :=
  ∃ s, c.sweeps[i]? = some s ∧ s.outcome?.isSome = true

/-- The turn does not hinder a sweep: no other sweep acts, its call is not cancelled, and nobody else
takes away the message. -/
structure Unhindered (i : Nat) (id : Int) (c : Crew) (t : Turn) : Prop where
  onTime : c.OnTime t
  sweep : ∀ j, t.sweep? = some j → j = i
  answer : ∀ f, t = .answer i (.error f) → f.isCancellation = false
  stays : t.sweep? = none → c.store.find? id ≠ none → (c.turn t).store.find? id ≠ none

/-- The sweep at a place is on the way to its first call for the message. -/
structure Reaching (i : Nat) (policy : Policy) (id : Int) (payload : Payload) (called : Prop)
    (c : Crew) : Prop where
  wellNumbered : c.store.WellNumbered
  isOpen : c.store.closed = false
  given : id ≤ c.store.lastId
  fits : policy.lease.Fits c.desk.now
  sweep : ∃ s, c.sweeps[i]? = some s ∧ s.policy = policy ∧ s.Sound ∧
    s.Reaches id payload (c.store.find? id) called

section reaching
variable {c : Crew} {i : Nat} {policy : Policy} {id : Int} {payload : Payload} {called : Prop} {t : Turn}

theorem Unhindered.row_eq (h : c.Unhindered i id t) (hc : c.store.WellNumbered)
    (hgiven : id ≤ c.store.lastId) (ht : t.sweep? = none) :
    (c.turn t).store.find? id = c.store.find? id := by
  cases hr : c.store.find? id with
  | none => exact absent_turn hc hgiven hr t
  | some r => exact hr ▸ (spares_turn hc ht hr (h.stays ht (by simp [hr]))).row

theorem Reaching.turn (h : c.Reaching i policy id payload called) (ht : c.Unhindered i id t) :
    (c.turn t).Reaching i policy id payload
      (called ∨ ∃ answer, c.call? t = some ⟨i, id, payload, answer⟩) := by
  have hc := h.wellNumbered
  have hstep := turn_step hc t
  obtain ⟨s, hs, hpolicy, hsound, hreaches⟩ := h.sweep
  refine ⟨hstep.wellNumbered hc, hstep.closed_eq.trans h.isOpen,
    Int.le_trans h.given hstep.lastId_le, h.fits.mono ht.onTime.le_now, ?_⟩
  obtain ⟨s', hs', hturn⟩ := hstep.sweepTurn hs
  refine ⟨s', hs', ?_⟩
  cases hturn with
  | kept hother =>
    have hnone : t.sweep? = none := by
      apply Option.eq_none_iff_forall_ne_some.mpr
      intro j hj
      exact hother (ht.sweep j hj ▸ hj)
    rw [ht.row_eq hc h.given hnone]
    exact ⟨hpolicy, hsound, hreaches.mono Or.inl⟩
  | advanced hturn hsweep =>
    subst hturn
    have he : s' = (s.advance c.desk).2 := Option.some.inj (hs'.symm.trans (sweep_turn_advance hs))
    have hsound' : s'.Sound := he ▸ Sweep.Sound.advance hc h.isOpen (hpolicy ▸ h.fits) hsound
    exact ⟨hsweep.policy_eq.trans hpolicy, hsound', (hreaches.step hc hsweep he).mono Or.inl⟩
  | answered answer hturn =>
    subst hturn
    have hstore : (c.turn (.answer i answer)).store = c.store := by
      rw [turn_answer hs]
      exact Sweep.answered_store answer s c.desk
    have hsound' := hsound.answered (fun f hf => ht.answer f (hf ▸ rfl)) c.desk
    rw [hstore]
    refine ⟨(Sweep.answered_policy answer s c.desk).trans hpolicy, hsound', ?_⟩
    cases hreaches with
    | ahead hattends hstarts =>
      refine .ahead (hattends.answered answer) ?_
      rw [Sweep.Starts, Sweep.answered_due]
      exact hstarts
    | calling hact hid hpayload =>
      exact .called (Or.inr ⟨answer, by simp [call?, hs, hact, hpayload, hid]⟩)
    | called hcalled => exact .called (Or.inl hcalled)

theorem Reaching.after (h : c.Reaching i policy id payload called) {ts : List Turn}
    (hts : c.Throughout (Unhindered i id) ts) :
    (c.after ts).Reaching i policy id payload
      (called ∨ ∃ answer, ⟨i, id, payload, answer⟩ ∈ c.along call? ts) := by
  induction ts generalizing c called with
  | nil =>
    obtain ⟨s, hs, hpolicy, hsound, hreaches⟩ := h.sweep
    exact ⟨h.wellNumbered, h.isOpen, h.given, h.fits, s, hs, hpolicy, hsound, hreaches.mono Or.inl⟩
  | cons t ts ih =>
    have hlast := ih (h.turn hts.1) hts.2
    obtain ⟨s, hs, hpolicy, hsound, hreaches⟩ := hlast.sweep
    refine ⟨hlast.wellNumbered, hlast.isOpen, hlast.given, hlast.fits, s, hs, hpolicy, hsound,
      hreaches.mono ?_⟩
    rintro ((hcalled | ⟨answer, hcall⟩) | ⟨answer, hcall⟩)
    · exact Or.inl hcalled
    · exact Or.inr ⟨answer, List.mem_append_left _ (Option.mem_toList.mpr hcall)⟩
    · exact Or.inr ⟨answer, List.mem_append_right _ hcall⟩

theorem Reaching.called_of_ended (h : c.Reaching i policy id payload called) (hended : c.HasEnded i) :
    called := by
  obtain ⟨s, hs, -, hsound, hreaches⟩ := h.sweep
  obtain ⟨s', hs', hover⟩ := hended
  cases hs.symm.trans hs'
  cases hact : s.activity with
  | ended f => exact hreaches.called_of_ended hsound hact
  | _ => simp [Sweep.outcome?, hact] at hover

/-- A sweep calls the messenger only for a message that it claimed. -/
theorem delivers_of_call (hc : c.store.WellNumbered) (hnone : c.sweeps[i]? = none) {ts : List Turn}
    (hcalled : ∃ answer, ⟨i, id, payload, answer⟩ ∈ c.along call? ts) :
    c.Delivers ts i id payload := by
  refine ⟨?_, hcalled⟩
  obtain ⟨answer, hcall⟩ := hcalled
  obtain ⟨us, t, vs, rfl, hturn⟩ := mem_along hcall
  obtain ⟨-, s, p, recipient, rest, receipts, hs, hact, hid, -⟩ := call?_eq_some hturn
  cases hid
  exact mem_along_append (claim_of_holding hc hnone hs (by rw [hact]; rfl))

/-- A sweep that is over calls the messenger for the message that it listed. -/
theorem Reaching.delivers (hc : c.store.WellNumbered) {now : Calendar.Moment}
    (h : (c.turn (.join policy now)).Reaching c.sweeps.length policy id payload False)
    {ts : List Turn} (hts : (c.turn (.join policy now)).Throughout (Unhindered c.sweeps.length id) ts)
    (hended : (c.after (.join policy now :: ts)).HasEnded c.sweeps.length) :
    c.Delivers (.join policy now :: ts) c.sweeps.length id payload := by
  obtain ⟨answer, hcall⟩ := ((h.after hts).called_of_ended hended).resolve_left not_false
  apply delivers_of_call hc (List.getElem?_eq_none (Nat.le_refl _))
  exact ⟨answer, List.mem_append_right _ hcall⟩

end reaching

/-! ## Sweeps come to their end -/

/-- The next turn of a sweep, if the messenger answers its calls so. -/
def nextTurn (c : Crew) (i : Nat) (answer : Crew → Payload → Except Failure String) : Turn :=
  match (c.sweeps[i]?).bind Sweep.request? with
  | some payload => .answer i (answer c payload)
  | none => .advance i

def nextTurns (c : Crew) (i : Nat) (answer : Crew → Payload → Except Failure String) :
    Nat → List Turn
  | 0 => []
  | n + 1 => c.nextTurn i answer :: (c.turn (c.nextTurn i answer)).nextTurns i answer n

section progress
variable {c : Crew} {i : Nat} {policy : Policy} {id : Int} {payload : Payload} {called : Prop}
  {answer : Crew → Payload → Except Failure String}
  (hanswer : ∀ c payload f, answer c payload = .error f → f.isCancellation = false)

include hanswer in
theorem unhindered_nextTurn : c.Unhindered i id (c.nextTurn i answer) := by
  unfold nextTurn
  split
  · rename_i payload _
    refine ⟨trivial, fun j hj => (Option.some.inj hj).symm, fun f hf => ?_, fun hnone => ?_⟩
    · exact hanswer c payload f (Turn.answer.inj hf).2
    · cases hnone
  · refine ⟨trivial, fun j hj => (Option.some.inj hj).symm, fun f hf => ?_, fun hnone => ?_⟩
    · cases hf
    · cases hnone

variable (answer) in
theorem load_nextTurn_lt (hc : c.store.WellNumbered) {s : Sweep} (hs : c.sweeps[i]? = some s)
    (hsound : s.Sound) (hlive : s.activity ≠ .ended none) :
    ∃ s', (c.turn (c.nextTurn i answer)).sweeps[i]? = some s' ∧ s'.load < s.load := by
  unfold nextTurn
  rw [hs, Option.bind_some]
  cases hrequest : s.request? with
  | some payload => exact ⟨_, sweep_turn_answer hs _, Sweep.load_answered_lt (by simp [hrequest]) _ _⟩
  | none =>
    exact ⟨_, sweep_turn_advance hs, (Sweep.advance_step hc).load_lt (hsound.isBusy hlive hrequest)⟩

variable (answer) in
/-- While no failure ends it, a sweep comes to its end. -/
theorem exists_end_of_sound {I : Crew → Prop}
    (hsweep : ∀ c, I c → c.store.WellNumbered ∧ ∃ s, c.sweeps[i]? = some s ∧ s.Sound)
    (hturn : ∀ c, I c → I (c.turn (c.nextTurn i answer))) {c : Crew} (h : I c) :
    ∃ n, (c.after (c.nextTurns i answer n)).HasEnded i := by
  obtain ⟨hc, s, hs, hsound⟩ := hsweep c h
  induction hload : s.load using Nat.strongRecOn generalizing c s with
  | ind load ih =>
    by_cases hlive : s.activity = .ended none
    · exact ⟨0, s, hs, by simp [Sweep.outcome?, hlive]⟩
    · obtain ⟨s', hs', hlt⟩ := load_nextTurn_lt answer hc hs hsound hlive
      have hnext := hturn c h
      obtain ⟨hc', s'', hs'', hsound'⟩ := hsweep _ hnext
      cases hs'.symm.trans hs''
      obtain ⟨n, hended⟩ := ih s'.load (hload ▸ hlt) hnext hc' s' hs' hsound' rfl
      exact ⟨n + 1, hended⟩

theorem throughout_nextTurns {P : Crew → Turn → Prop} (h : ∀ c, P c (c.nextTurn i answer)) (c : Crew)
    (n : Nat) : c.Throughout P (c.nextTurns i answer n) := by
  induction n generalizing c with
  | zero => trivial
  | succ n ih => exact ⟨h c, ih _⟩

include hanswer in
/-- However the messenger answers, a sweep comes to its end, unless a call is cancelled. -/
theorem Reaching.exists_end (h : c.Reaching i policy id payload called) :
    ∃ n, c.Throughout (Unhindered i id) (c.nextTurns i answer n) ∧
      (c.after (c.nextTurns i answer n)).HasEnded i := by
  have hsweep (c : Crew) (h : ∃ called, c.Reaching i policy id payload called) :
      c.store.WellNumbered ∧ ∃ s, c.sweeps[i]? = some s ∧ s.Sound := by
    obtain ⟨called, h⟩ := h
    obtain ⟨s, hs, -, hsound, -⟩ := h.sweep
    exact ⟨h.wellNumbered, s, hs, hsound⟩
  have hturn (c : Crew) (h : ∃ called, c.Reaching i policy id payload called) :
      ∃ called, (c.turn (c.nextTurn i answer)).Reaching i policy id payload called := by
    obtain ⟨called, h⟩ := h
    exact ⟨_, h.turn (unhindered_nextTurn hanswer)⟩
  obtain ⟨n, hended⟩ := exists_end_of_sound answer hsweep hturn ⟨called, h⟩
  exact ⟨n, throughout_nextTurns (fun _ => unhindered_nextTurn hanswer) c n, hended⟩

end progress

/-! ## From the dispatch to the first call -/

section arrival
open Script.Dispatch (Stores Takes minutesFrom? plan stores_of_plan recipients_of_plan takes_trace_send)

variable {title body : String} {recipients : List String} {automationId : Option Int} {id : Int}
  {t₀ : Instant}

theorem unheard_dispatch {c : Crew} (hc : c.IsFresh) (before : List Turn) {minutes : Int} {d : Desk}
    (hplan : plan ⟨.text title, .text body, recipients⟩ (.int minutes) (.ofOptionInt automationId)
      (c.after before).desk = .store (.pending id) d)
    (ht₀ : minutesFrom? (c.after before).desk.now minutes = some t₀) :
    ∃ row, Stores title body recipients automationId t₀ row ∧
      (c.after (before ++ [.dispatch ⟨.text title, .text body, recipients⟩ (.int minutes)
        (.ofOptionInt automationId)])).Unheard id t₀ row := by
  obtain ⟨row, hst, rfl, hnew, hrow⟩ := stores_of_plan hplan ht₀
  refine ⟨row, hrow, ?_⟩
  rw [after_append, after_cons, after_nil]
  apply unheard_stored hc before ?_ hnew hrow.scheduledAt
  rw [turn, dispatch, hplan]
  exact hst

/-- A sweep begins that lists the message. -/
theorem reaching_join {c : Crew} (hc : c.store.WellNumbered) (hopen : c.store.closed = false)
    (h : c.store.Legible) {r : Row} (hr : c.store.find? id = some r)
    (hrow : Stores title body recipients automationId t₀ r) (hrecipients : recipients ≠ [])
    (htime : t₀ ≤ c.desk.now) {policy : Policy} (htries : 1 ≤ policy.retryLimit)
    (hword : Cell.isWord policy.retryLimit = true) (hfits : policy.lease.Fits c.desk.now)
    (hrank : c.store.rank policy c.desk.now r < 100) :
    (c.turn (.join policy c.desk.moment)).Reaching c.sweeps.length policy id
      ⟨.text title, .text body, recipients.take 1⟩ False := by
  have hmoment : c.desk.moment.utc? = some c.desk.now := Calendar.Moment.utc?_ofInstant c.desk.now
  have hdue : Store.isDue c.desk.now.text (policy.lease.cutoffText c.desk.now) policy.retryLimit r =
      true := by
    have hscheduled : t₀.text ≤ c.desk.now.text := Instant.text_le_iff.mpr htime
    have hleft : (0 : Int) < policy.retryLimit := htries
    simp [Store.isDue, Store.isClaimable, hrow.waits.free, hrow.scheduledAt, hrow.attempts,
      hscheduled, hleft]
  have hlisted : id ∈ (Sweep.list policy c.desk.moment c.desk).due.map (·.id) := by
    rw [← Store.id_of_find? hr]
    exact Sweep.listed_of_rank hopen h hmoment hfits hword (Store.mem_of_find? hr) hdue
      (Int.ofNat_lt.mpr hrank)
  obtain ⟨s, hs, hattends⟩ := attends_join hlisted hr hrow.waits.free
  refine ⟨hc, hopen, Store.le_lastId_of_find? hc hr, hfits, s, hs, ?_⟩
  obtain rfl : Sweep.list policy c.desk.moment c.desk = s := by simpa [turn] using hs
  have hsound := Sweep.sound_list hopen h hmoment hfits hword
  refine ⟨Sweep.list_policy policy _ _, hsound, .ahead hattends ?_⟩
  intro p hp hid
  obtain ⟨r', hr', hpending, -⟩ := (Sweep.list_due hc policy c.desk.moment).2 p hp
  cases (hid ▸ hr).symm.trans hr'
  obtain ⟨rfl, rfl, rfl, hdelivered⟩ := hrow.waits.carries.pending hrow.waits.notes hpending
  obtain ⟨x, rest, hx⟩ := List.exists_cons_of_ne_nil hrecipients
  refine ⟨x, rest, ?_, by rw [hx]; rfl⟩
  simp [Pending.remaining, hdelivered, hx]

/-- The sweep that begins after the turns is the first one at the time of the message or later, and
the message is there and among those that it can list. -/
structure FirstSweep (c : Crew) (later : List Turn) (policy : Policy) (id : Int) (t₀ : Instant) :
    Prop where
  earlier : c.Throughout (BeginsBefore t₀) later
  time : t₀ ≤ (c.after later).desk.now
  row : ∃ r, (c.after later).store.find? id = some r ∧
    (c.after later).store.rank policy (c.after later).desk.now r < 100
  tries : 1 ≤ policy.retryLimit
  fits : policy.lease.Fits (c.after later).desk.now

theorem FirstSweep.reaching {c : Crew} {row : Row} (hunheard : c.Unheard id t₀ row)
    (hrow : Stores title body recipients automationId t₀ row) (hrecipients : recipients ≠ [])
    (hopen : c.store.closed = false) (hlegible : c.store.Legible) {later : List Turn}
    (hlater : c.Throughout OnTime later) (htyped : ∀ t ∈ later, t.Typed) {policy : Policy}
    (hword : Cell.isWord policy.retryLimit = true) (h : c.FirstSweep later policy id t₀) :
    ((c.after later).turn (.join policy (c.after later).desk.moment)).Reaching
      (c.after later).sweeps.length policy id ⟨.text title, .text body, recipients.take 1⟩ False := by
  have hwell := hunheard.punctual.wellNumbered
  have hunheard' := hunheard.after hlater h.earlier
  obtain ⟨r, hr, hrank⟩ := h.row
  obtain rfl := hunheard'.row r hr
  exact reaching_join hunheard'.punctual.wellNumbered ((closed_after hwell later).trans hopen)
    (legible_after hwell hlegible htyped) hr hrow hrecipients h.time h.tries hword h.fits hrank

/-- A dispatch has one effect or none: it is refused, or it stores the message, or it calls the
messenger. While the clock does not go back, nobody calls the messenger for a message that was stored
before its time has come. The first sweep at that time or later calls the messenger for it before it
is over, and it comes to its end however the messenger answers, unless a call is cancelled. -/
theorem dispatched_is_sent_on_time (title body : String) (recipients : List String)
    (automationId : Option Int) :
    (∀ (delay : Option Int) (w : Surroundings Desk) (calls : Nat) (d : Desk),
      Takes title body recipients delay automationId w calls d
        ((Script.Dispatch.send ⟨.text title, .text body, recipients⟩ (.ofOptionInt delay)
          (.ofOptionInt automationId)).trace w calls d)) ∧
    ∀ (c : Crew) (before later : List Turn) (minutes id : Int) (d : Desk) (t₀ : Instant) (c₁ c₂ : Crew),
      c.IsFresh →
      plan ⟨.text title, .text body, recipients⟩ (.int minutes) (.ofOptionInt automationId)
        (c.after before).desk = .store (.pending id) d →
      minutesFrom? (c.after before).desk.now minutes = some t₀ →
      c₁ = c.after (before ++ [.dispatch ⟨.text title, .text body, recipients⟩ (.int minutes)
        (.ofOptionInt automationId)]) →
      c₁.Throughout OnTime later → c₂ = c₁.after later →
      (∀ us, us <+: later → (c₁.after us).desk.now < t₀ → ¬ (c₁.after us).Calls id) ∧
      (c.store.Legible → (∀ t ∈ before ++ later, t.Typed) →
        ∀ policy : Policy, Cell.isWord policy.retryLimit = true → c₁.FirstSweep later policy id t₀ →
        ∀ work, (c₂.turn (.join policy c₂.desk.moment)).Throughout
            (Unhindered c₂.sweeps.length id) work →
          ((c₂.after (.join policy c₂.desk.moment :: work)).HasEnded c₂.sweeps.length →
            c₂.Delivers (.join policy c₂.desk.moment :: work) c₂.sweeps.length id
              ⟨.text title, .text body, recipients.take 1⟩) ∧
          ∀ answer : Crew → Payload → Except Failure String,
            (∀ c payload f, answer c payload = .error f → f.isCancellation = false) →
            ∃ n rest, rest = (c₂.after (.join policy c₂.desk.moment :: work)).nextTurns
                c₂.sweeps.length answer n ∧
              (c₂.after (.join policy c₂.desk.moment :: (work ++ rest))).HasEnded c₂.sweeps.length ∧
              c₂.Delivers (.join policy c₂.desk.moment :: (work ++ rest)) c₂.sweeps.length id
                ⟨.text title, .text body, recipients.take 1⟩) := by
  refine ⟨fun delay w calls d => takes_trace_send w calls d, ?_⟩
  intro c before later minutes id d t₀ c₁ c₂ hc hplan ht₀ hc₁ hlater hc₂
  obtain ⟨row, hrow, hunheard⟩ := unheard_dispatch hc before hplan ht₀
  rw [← hc₁] at hunheard
  constructor
  · rintro us ⟨vs, rfl⟩ hearly hcalls
    have hpunctual := hunheard.punctual.after (throughout_append.mp hlater).1
    exact Nat.not_lt.mpr (hpunctual.knows hcalls.knows) hearly
  intro hlegible htyped policy hword hfirst work hwork
  have hwell := wellNumbered_after hc.wellNumbered before
  have hrecipients := recipients_of_plan hplan
  obtain ⟨draft, _, -, -, -, -, -, hcreate⟩ := plan_draft hplan
  have hopen : c₁.store.closed = false := by
    rw [hc₁, after_append, closed_after hwell]
    exact Store.create_open hcreate
  have hlegible₁ : c₁.store.Legible := by
    rw [hc₁]
    refine legible_after hc.wellNumbered hlegible fun t ht => ?_
    rcases List.mem_append.mp ht with ht | ht
    · exact htyped t (List.mem_append_left _ ht)
    · rw [List.mem_singleton.mp ht]
      exact ⟨automationId, rfl⟩
  have hreaching := hfirst.reaching hunheard hrow hrecipients hopen hlegible₁ hlater
    (fun t ht => htyped t (List.mem_append_right _ ht)) hword
  rw [← hc₂] at hreaching
  have hwell₂ : c₂.store.WellNumbered :=
    hc₂ ▸ wellNumbered_after hunheard.punctual.wellNumbered later
  refine ⟨hreaching.delivers hwell₂ hwork, fun answer hanswer => ?_⟩
  obtain ⟨n, hrest, hended⟩ := (hreaching.after hwork).exists_end hanswer
  have hall := throughout_append.mpr ⟨hwork, hrest⟩
  rw [← after_append] at hended
  exact ⟨n, _, rfl, hended, hreaching.delivers hwell₂ hall hended⟩

end arrival

/-! ## A letter that is sent after five minutes -/

def fivePastNoon : Instant :=
  ⟨63844891500000000, by decide⟩

/-- At one a sweep begins that is the first one after the time of the letter. -/
def lateMail : Crew :=
  (mailed ["ann"]).after [.setClock oneOClock]

theorem plan_letter : ∃ d, Script.Dispatch.plan (letter ["ann"]) (.int 5) .null
    ((idle noon).after []).desk = .store (.pending 1) d := by
  have hstored : storedId? (Script.Dispatch.plan (letter ["ann"]) (.int 5) .null
      ((idle noon).after []).desk) = some 1 := by decide +kernel
  exact plan_of_storedId? hstored

theorem minutesFrom?_noon : Script.Dispatch.minutesFrom? noon 5 = some fivePastNoon := by
  decide +kernel

/-- The sweep that begins at one comes late enough for the letter. -/
theorem firstSweep_at_one {c : Crew} {policy : Policy} {id : Int} (htries : 1 ≤ policy.retryLimit)
    (hfits : policy.lease.Fits oneOClock) (hstored : (c.store.find? id).isSome = true)
    (hfew : c.store.rows.length < 100) :
    c.FirstSweep [.setClock oneOClock] policy id fivePastNoon := by
  obtain ⟨r, hr⟩ := Option.isSome_iff_exists.mp hstored
  have hlate : fivePastNoon ≤ oneOClock := by decide +kernel
  refine ⟨⟨trivial, trivial⟩, hlate, ⟨r, hr, ?_⟩, htries, hfits⟩
  exact Nat.lt_of_le_of_lt List.countP_le_length hfew

/-- Nobody sends the letter before five past, and the sweep that begins at one sends it. -/
theorem dispatched_is_sent_on_time_letter :
    (mailed ["ann"]).FirstSweep [.setClock oneOClock] thrice 1 fivePastNoon ∧
      (∀ us, us <+: [.setClock oneOClock] → ((mailed ["ann"]).after us).desk.now < fivePastNoon →
        ¬ ((mailed ["ann"]).after us).Calls 1) ∧
      ∃ ts, (lateMail.after (.join thrice (.ofInstant oneOClock) :: ts)).HasEnded 0 ∧
        lateMail.Delivers (.join thrice (.ofInstant oneOClock) :: ts) 0 1 (letter ["ann"]) := by
  obtain ⟨d, hplan⟩ := plan_letter
  have hfits : Lease.none.Fits oneOClock := by decide +kernel
  have hfirst : (mailed ["ann"]).FirstSweep [.setClock oneOClock] thrice 1 fivePastNoon :=
    firstSweep_at_one (by decide) hfits (by decide +kernel) (by decide +kernel)
  have hontime : (mailed ["ann"]).Throughout OnTime [.setClock oneOClock] :=
    ⟨Nat.le_of_ble_eq_true (by decide +kernel), trivial⟩
  have hplace : lateMail.sweeps.length = 0 := by decide +kernel
  obtain ⟨hearly, hlate⟩ := (dispatched_is_sent_on_time "Hello" "See you at five." ["ann"] none).2
    (idle noon) [] [.setClock oneOClock] 5 1 d fivePastNoon (mailed ["ann"]) lateMail
    (isFresh_idle noon) hplan minutesFrom?_noon rfl hontime rfl
  have htyped : ∀ t ∈ [] ++ [Turn.setClock oneOClock], t.Typed := by
    intro t ht
    rw [List.mem_singleton.mp ht]
    trivial
  rw [hplace] at hlate
  obtain ⟨-, hall⟩ := hlate Store.legible_empty htyped thrice rfl hfirst [] trivial
  obtain ⟨n, rest, -, hended, hdelivers⟩ := hall (fun _ _ => .ok "receipt") (by simp)
  exact ⟨hfirst, hearly, rest, hended, hdelivers⟩

/-! ## Sweeps that send nothing -/

/-- A sweep that is over calls nobody. -/
theorem not_called_of_ended {c : Crew} (hc : c.store.WellNumbered) {i : Nat} (h : c.HasEnded i)
    (ts : List Turn) : ∀ call ∈ c.along call? ts, call.sweep ≠ i := by
  obtain ⟨s, hs, hover⟩ := h
  obtain ⟨f, hact⟩ : ∃ f, s.activity = .ended f := by
    cases hact : s.activity with
    | ended f => exact ⟨f, rfl⟩
    | _ => simp [Sweep.outcome?, hact] at hover
  induction ts generalizing c with
  | nil => exact fun call hcall => absurd hcall List.not_mem_nil
  | cons t ts ih =>
    intro call hcall
    rcases List.mem_append.mp hcall with hcall | hcall
    · obtain ⟨-, s', _, _, _, _, hs', hsending, -⟩ := call?_eq_some (Option.mem_toList.mp hcall)
      rintro rfl
      cases hs.symm.trans hs'
      cases hact.symm.trans hsending
    · have hstep := turn_step hc t
      obtain ⟨s', hs', hturn⟩ := hstep.sweepTurn hs
      obtain rfl : s' = s := by
        cases hturn with
        | kept => rfl
        | advanced _ hsweep => exact (hsweep.of_not_busy (by rw [Sweep.isBusy, hact])).1
        | answered answer => simp [Sweep.answered, hact]
      exact ih (hstep.wellNumbered hc) hs' call hcall

/-- A sweep that is over as soon as it begins delivers nothing. -/
theorem not_delivers_of_ended {c : Crew} (hc : c.store.WellNumbered) {policy : Policy}
    {now : Calendar.Moment} {i : Nat} (h : (c.turn (.join policy now)).HasEnded i) (ts : List Turn)
    (id : Int) (payload : Payload) : ¬ c.Delivers (.join policy now :: ts) i id payload := by
  rintro ⟨-, answer, hcall⟩
  exact not_called_of_ended ((turn_step hc _).wellNumbered hc) h ts _ hcall rfl

/-- A row is due that cannot be read: what it holds of its automation is no whole number. -/
def torn : Crew :=
  ⟨⟨Store.empty.insertLast ⟨1, noon.text, .real (.infinite false), "Hello", "See you at four.", "[]",
    noon.text, none, 0, none, "[]"⟩, noon, [], none, []⟩, []⟩

def tornMail : Crew :=
  (torn.after [.dispatch (letter ["ann"]) (.int 5) .null]).after [.setClock oneOClock]

/-- So the sweep that begins at one ends with a failure. -/
theorem ended_tornMail : (tornMail.turn (.join thrice (.ofInstant oneOClock))).HasEnded 0 := by
  have hopen : tornMail.desk.store.closed = false := by decide +kernel
  have hfits : Lease.none.Fits oneOClock := by decide +kernel
  have hrows : Store.dueRows oneOClock.text (Lease.none.cutoffText oneOClock) 3 Sweep.listLimit
      tornMail.desk.store.rows = tornMail.desk.store.rows := by
    rw [Store.dueRows, List.mergeSort_of_pairwise (by decide +kernel)]
    decide +kernel
  have hunread : (tornMail.desk.store.rows.mapM Row.pending).isOk = false := by decide +kernel
  have hlist : tornMail.desk.store.listDue (.ofInstant oneOClock) 3 Sweep.listLimit .none =
      tornMail.desk.store.rows.mapM Row.pending := by
    rw [Store.listDue_eq hopen (Calendar.Moment.utc?_ofInstant oneOClock) hfits rfl rfl, hrows]
  have hplace : tornMail.sweeps.length = 0 := by decide +kernel
  cases hread : tornMail.desk.store.rows.mapM Row.pending with
  | ok due =>
    rw [hread] at hunread
    cases hunread
  | error f =>
    have hrefused := hlist.trans hread
    refine ⟨⟨thrice, [], 0, .ended (some f)⟩, ?_, rfl⟩
    rw [turn, Sweep.list, thrice, hrefused]
    exact hplace ▸ List.getElem?_concat_length

/-- The letter is due. But the policy has more tries than a column holds, or a row that is due cannot
be read; so the sweep that begins at one is over at once and sends nothing. -/
theorem first_sweep_sends_nothing :
    (Script.Dispatch.minutesFrom? noon 5 = some fivePastNoon ∧
      (mailed ["ann"]).FirstSweep [.setClock oneOClock] ⟨Cell.wordBound, .none, none, 15⟩ 1
        fivePastNoon ∧
      ∀ ts, ¬ lateMail.Delivers
        (.join ⟨Cell.wordBound, .none, none, 15⟩ (.ofInstant oneOClock) :: ts) 0 1 (letter ["ann"])) ∧
    ((torn.after [.dispatch (letter ["ann"]) (.int 5) .null]).FirstSweep [.setClock oneOClock] thrice 2
        fivePastNoon ∧
      ∀ ts, ¬ tornMail.Delivers (.join thrice (.ofInstant oneOClock) :: ts) 0 2 (letter ["ann"])) := by
  have hfits : Lease.none.Fits oneOClock := by decide +kernel
  constructor
  · have hwell := wellNumbered_after (wellNumbered_after (isFresh_idle noon).wellNumbered
      [.dispatch (letter ["ann"]) (.int 5) .null]) [.setClock oneOClock]
    have hover : (((lateMail.turn (.join ⟨Cell.wordBound, .none, none, 15⟩
        (.ofInstant oneOClock))).sweeps[0]?).map fun s => s.outcome?.isSome) = some true := by
      decide +kernel
    refine ⟨minutesFrom?_noon, firstSweep_at_one (by decide) hfits (by decide +kernel)
      (by decide +kernel), fun ts => ?_⟩
    exact not_delivers_of_ended hwell (Option.map_eq_some_iff.mp hover) ts 1 (letter ["ann"])
  · have htorn : torn.store.WellNumbered :=
      Store.wellNumbered_insertLast Store.wellNumbered_empty (by decide)
    have hwell := wellNumbered_after (wellNumbered_after htorn
      [.dispatch (letter ["ann"]) (.int 5) .null]) [.setClock oneOClock]
    refine ⟨firstSweep_at_one (by decide) hfits (by decide +kernel) (by decide +kernel), fun ts => ?_⟩
    exact not_delivers_of_ended hwell ended_tornMail ts 2 (letter ["ann"])

end Crew

end Courier.Outbox
