import Courier.Proofs.Crew.Arrival
import Courier.Proofs.Crew.Staleness
import Courier.Proofs.Outbox.Attempts

/-!
# Failures do not spread

A sweep attempts each of the messages that are due once, in their order, however many of the attempts
fail: it goes through all of them and comes to its end, counts and records every one, and leaves all
other rows alone.
-/

namespace Courier.Outbox

open Calendar (Instant)

/-- A later clock makes no claim count again. -/
theorem Lease.cutoffText_le {lease : Lease} {t u : Instant} (h : lease.Fits t) (hle : t ≤ u) :
    lease.cutoffText t ≤ lease.cutoffText u := by
  cases hon : lease.isOff with
  | true =>
    have hsame : lease.cutoffText t = lease.cutoffText u := by
      rw [cutoffText, cutoffText, cutoff?, cutoff?, if_pos hon, if_pos hon]
    exact hsame ▸ String.le_refl _
  | false =>
    obtain ⟨cutoff, hcutoff⟩ := Option.isSome_iff_exists.mp (h hon)
    obtain ⟨later, hlater⟩ := Option.isSome_iff_exists.mp (h.mono hle hon)
    rw [cutoffText, cutoffText, hcutoff, hlater, Option.map_some, Option.map_some, Option.getD_some,
      Option.getD_some, Instant.text_le_iff]
    rw [cutoff?, if_neg (by simp [hon])] at hcutoff hlater
    cases hspan : lease.span with
    | error f => simp [hspan] at hcutoff
    | ok span =>
      rw [hspan] at hcutoff hlater
      have hmicros := micros_of_add? hcutoff
      have hmicros' := micros_of_add? hlater
      have hle' : t.micros ≤ u.micros := hle
      show cutoff.micros ≤ later.micros
      omega

theorem Store.isClaimable_mono {cutoff later : String} (hle : cutoff ≤ later) {r : Row}
    (h : isClaimable cutoff r = true) : isClaimable later r = true := by
  unfold isClaimable at h ⊢
  split at h
  · rfl
  · simp only [decide_eq_true_eq] at h ⊢
    exact Std.lt_of_lt_of_le h hle

theorem Sweep.Claimable.mono {st₀ : Store} {listed : List Pending} {lease : Lease} {t u : Instant}
    (h : Claimable st₀ listed lease t) (hfits : lease.Fits t) (hle : t ≤ u) :
    Claimable st₀ listed lease u := by
  intro p hp
  obtain ⟨r, hr, hpending, hclaimable⟩ := h p hp
  exact ⟨r, hr, hpending, Store.isClaimable_mono (Lease.cutoffText_le hfits hle) hclaimable⟩

/-- A message can be read from the row, and can be claimed and recorded. -/
def Row.IsReady (r : Row) : Prop :=
  ∃ p, r.pending = .ok p ∧ p.Ready

theorem Store.map_pending_of_mapM {rows : List Row} {listed : List Pending}
    (h : rows.mapM Row.pending = .ok listed) : rows.map Row.pending = listed.map .ok := by
  induction rows generalizing listed with
  | nil =>
    cases h
    rfl
  | cons r rows ih =>
    simp only [List.mapM_cons, bind_eq_ok] at h
    obtain ⟨p, hp, listed', hlisted', h⟩ := h
    cases h
    rw [List.map_cons, List.map_cons, hp, ih hlisted']

namespace Crew

/-- The sweep is the only one that acts, the clock does not go back, and no call is cancelled. -/
structure Quiet (i : Nat) (c : Crew) (t : Turn) : Prop where
  only : t.Only i
  onTime : c.OnTime t
  answer : ∀ f, t = .answer i (.error f) → f.isCancellation = false

/-- A call of a sweep for a message. -/
def callOf (i : Nat) (made : Int × Exchange) : Call :=
  ⟨i, made.1, made.2.payload, made.2.answer⟩

/-- A sweep on its tour through the messages that it listed, with the claims and calls so far. -/
structure Touring (i : Nat) (policy : Policy) (st₀ : Store) (listed : List Pending)
    (claims : List (Nat × Int)) (calls : List Call) (c : Crew) : Prop where
  wellNumbered : c.store.WellNumbered
  isOpen : c.store.closed = false
  fits : policy.lease.Fits c.desk.now
  claimable : Sweep.Claimable st₀ listed policy.lease c.desk.now
  sweep : ∃ s taken made, c.sweeps[i]? = some s ∧ s.policy = policy ∧ s.Sound ∧
    s.Tour st₀ listed c.store taken made ∧ claims = taken.map (i, ·) ∧ calls = made.map (callOf i)

section touring
variable {i : Nat} {policy : Policy} {st₀ : Store} {listed : List Pending}
  {claims : List (Nat × Int)} {calls : List Call} {c : Crew} {t : Turn}

theorem Touring.turn (hnodup : (listed.map (·.id)).Nodup)
    (h : c.Touring i policy st₀ listed claims calls) (ht : c.Quiet i t) :
    (c.turn t).Touring i policy st₀ listed (claims ++ (c.claim? t).toList)
      (calls ++ (c.call? t).toList) := by
  have hc := h.wellNumbered
  have hstep := turn_step hc t
  obtain ⟨s, taken, made, hs, hpolicy, hsound, htour, rfl, rfl⟩ := h.sweep
  refine ⟨hstep.wellNumbered hc, hstep.closed_eq.trans h.isOpen, h.fits.mono ht.onTime.le_now,
    h.claimable.mono h.fits ht.onTime.le_now, ?_⟩
  rcases only_cases hs ht.only with ⟨⟨now, rfl⟩, hstore, hs'⟩ | ⟨rfl, hstore, hs'⟩ |
    ⟨answer, rfl, hstore, hs'⟩
  · refine ⟨s, taken, made, hs', hpolicy, hsound, hstore ▸ htour, ?_, ?_⟩
    · exact List.append_nil _
    · exact List.append_nil _
  · have hfits : s.policy.lease.Fits c.desk.now := hpolicy ▸ h.fits
    have hsound' := Sweep.Sound.advance hc h.isOpen hfits hsound
    have htour' := htour.advance hc hnodup h.isOpen hfits hsound (hpolicy ▸ h.claimable)
    refine ⟨_, _, _, hs', (Sweep.advance_step hc).policy_eq.trans hpolicy, hsound', hstore ▸ htour',
      ?_, ?_⟩
    · have hclaim : c.claim? (.advance i) = (s.claims? c.desk).map (i, ·) := by
        simp [claim?, seeAdvance, hs]
      rw [hclaim, List.map_append]
      cases s.claims? c.desk <;> rfl
    · exact List.append_nil _
  · have hanswer (f : Failure) (hf : answer = .error f) := ht.answer f (hf ▸ rfl)
    have hsound' := hsound.answered hanswer c.desk
    have htour' := htour.answered hnodup hanswer
    refine ⟨_, taken, made ++ (s.exchange? answer).toList, hs',
      (Sweep.answered_policy answer s c.desk).trans hpolicy, hsound', ?_, List.append_nil _, ?_⟩
    · rw [hstore]
      exact htour'
    have hcall : c.call? (.answer i answer) = (s.exchange? answer).map (callOf i) := by
      cases hact : s.activity <;>
        simp [call?, hs, Sweep.exchange?, Sweep.request?, hact, callOf, Pending.exchange]
    rw [hcall, List.map_append]
    cases s.exchange? answer <;> rfl

theorem Touring.after (hnodup : (listed.map (·.id)).Nodup)
    (h : c.Touring i policy st₀ listed claims calls) {ts : List Turn}
    (hts : c.Throughout (Quiet i) ts) :
    (c.after ts).Touring i policy st₀ listed (claims ++ c.along claim? ts)
      (calls ++ c.along call? ts) := by
  induction ts generalizing c claims calls with
  | nil => simpa [along] using h
  | cons t ts ih =>
    have hafter := ih (h.turn hnodup hts.1) hts.2
    rwa [List.append_assoc, List.append_assoc] at hafter

/-- A sweep that is over attempted all messages that it listed. -/
theorem Touring.exists_attempts (h : c.Touring i policy st₀ listed claims calls)
    (hended : c.HasEnded i) :
    ∃ attempts : List Attempt, listed = attempts.map (·.pending) ∧
      Ledger policy st₀ c.store attempts (Attempt.ids attempts)
        (attempts.countP Attempt.succeeded) [] ∧
      claims = (Attempt.ids attempts).map (i, ·) ∧
      calls = (Attempt.allExchanges attempts).map (callOf i) ∧
      ∃ s, c.sweeps[i]? = some s ∧
        s.outcome? = some (.ok (attempts.countP Attempt.succeeded)) := by
  obtain ⟨s, taken, made, hs, hpolicy, hsound, htour, hclaims, hcalls⟩ := h.sweep
  obtain ⟨s', hs', hover⟩ := hended
  cases hs.symm.trans hs'
  have hact : s.activity = .ended none := by
    cases hact : s.activity with
    | ended f =>
      cases f with
      | none => rfl
      | some f => exact absurd hact (hsound.intact f)
    | _ => simp [Sweep.outcome?, hact] at hover
  cases htour with
  | @between attempts hidle hlisted hledger =>
    have hcounted := hledger.counted
    rw [hpolicy, hcounted] at hledger
    rcases hidle with htaking | ⟨-, hdue⟩
    · rw [hact] at htaking
      cases htaking
    · rw [hdue, List.append_nil] at hlisted
      refine ⟨attempts, hlisted, hledger, hclaims, hcalls, s, hs, ?_⟩
      rw [Sweep.outcome?, hact, hcounted]
  | within hr hunderway =>
    have hpending := hunderway.pending
    rw [hact] at hpending
    cases hpending

theorem Touring.exists_end (hnodup : (listed.map (·.id)).Nodup)
    (h : c.Touring i policy st₀ listed claims calls)
    {answer : Crew → Message.Payload → Except Failure String}
    (hanswer : ∀ c payload f, answer c payload = .error f → f.isCancellation = false) :
    ∃ n, (c.after (c.nextTurns i answer n)).HasEnded i := by
  have hquiet (c : Crew) : c.Quiet i (c.nextTurn i answer) := by
    unfold nextTurn
    split
    · refine ⟨rfl, trivial, fun f hf => ?_⟩
      exact hanswer c _ f (Turn.answer.inj hf).2
    · refine ⟨rfl, trivial, fun f hf => ?_⟩
      cases hf
  apply exists_end_of_sound answer
    (I := fun c => ∃ claims calls, c.Touring i policy st₀ listed claims calls)
  · rintro c ⟨claims, calls, h⟩
    obtain ⟨s, taken, made, hs, -, hsound, -⟩ := h.sweep
    exact ⟨h.wellNumbered, s, hs, hsound⟩
  · rintro c ⟨claims, calls, h⟩
    exact ⟨_, _, h.turn hnodup (hquiet c)⟩
  · exact ⟨claims, calls, h⟩

end touring

/-! ## The whole sweep -/

/-- The rows that are due by the clock: the first hundred of those that may be sent, in the order of
their times. -/
def dueNow (c : Crew) (policy : Policy) : List Row :=
  Store.dueRows c.desk.now.text (policy.lease.cutoffText c.desk.now) policy.retryLimit
    Sweep.listLimit c.store.rows

section join
variable {c : Crew} (hc : c.store.WellNumbered) (hopen : c.store.closed = false) {policy : Policy}
  (hword : Cell.isWord policy.retryLimit = true) (hfits : policy.lease.Fits c.desk.now)
  (hready : ∀ r ∈ c.dueNow policy, r.IsReady)
include hc hopen hword hfits hready

theorem touring_join :
    ∃ listed, (c.dueNow policy).map Row.pending = listed.map .ok ∧ (listed.map (·.id)).Nodup ∧
      listed.map (·.id) = (c.dueNow policy).map (·.id) ∧
      (c.turn (.join policy c.desk.moment)).Touring c.sweeps.length policy c.store listed [] [] := by
  have hmoment : c.desk.moment.utc? = some c.desk.now := Calendar.Moment.utc?_ofInstant c.desk.now
  obtain ⟨listed, hlisted⟩ := mapM_pending_exists fun r hr => by
    obtain ⟨p, hp, -⟩ := hready r hr
    exact ⟨p, hp⟩
  have hlimit : Cell.isWord Sweep.listLimit = true := rfl
  have hresult : c.desk.store.listDue c.desk.moment policy.retryLimit Sweep.listLimit policy.lease =
      .ok listed := (Store.listDue_eq hopen hmoment hfits hword hlimit).trans hlisted
  have hlist : Sweep.list policy c.desk.moment c.desk = ⟨policy, listed, 0, .taking⟩ := by
    rw [Sweep.list, hresult]
  have hdue := Sweep.list_due hc policy c.desk.moment
  rw [hlist] at hdue
  obtain ⟨hids, hmem⟩ := Store.mapM_pending_ok hlisted
  refine ⟨listed, Store.map_pending_of_mapM hlisted, hdue.1, hids, ?_⟩
  have hstep := turn_step hc (.join policy c.desk.moment)
  refine ⟨hstep.wellNumbered hc, hstep.closed_eq.trans hopen, hfits, ?_, ?_⟩
  · intro p hp
    obtain ⟨r, hr, hpending⟩ := hmem p hp
    obtain ⟨hrow, hisDue⟩ := Store.mem_dueRows hr
    simp only [Store.isDue, Bool.and_eq_true] at hisDue
    have hid := (Row.pending_ok hpending).1
    exact ⟨r, hid ▸ Store.find?_of_mem hc hrow, hpending, hisDue.1.1⟩
  · refine ⟨Sweep.list policy c.desk.moment c.desk, [], [], by simp [turn], ?_, ?_, ?_, rfl, rfl⟩
    · rw [hlist]
    · rw [hlist]
      refine ⟨fun p hp => ?_, fun p hp => ?_, fun f hf => ?_, fun p f hf => ?_, fun p n f hf => ?_⟩
      · obtain ⟨r, hr, hpending⟩ := hmem p hp
        obtain ⟨p', hp', hready⟩ := hready r hr
        cases hpending.symm.trans hp'
        exact hready
      · cases hp
      · cases hf
      · cases hf
      · cases hf
    · rw [hlist]
      have hledger : Ledger policy c.store c.store [] (Attempt.ids []) 0 [] := .opening
      exact Sweep.Tour.between (s := ⟨policy, listed, 0, .taking⟩) (Or.inl rfl) rfl hledger

end join

theorem eventType_of_makes {e : Entry} {event : Event} {name : String} (h : e.Makes event)
    (he : e.eventType = .text name) : event.eventType = name := by
  obtain ⟨id, createdAt, hevent⟩ := h
  simp only [Entry.event, he, bind_eq_ok] at hevent
  obtain ⟨_, htype, _, -, _, -, _, -, _, htext, hevent⟩ := hevent
  cases htype
  cases htext
  cases hevent
  rfl

theorem eventType_of_made {policy : Policy} {st₀ : Store} {a : Attempt} (h : a.Made policy st₀) :
    a.event.eventType =
      if a.succeeded then "pending_message_sent" else "pending_message_error" := by
  cases h with
  | delivered _ _ hevent hleft =>
    rw [Attempt.succeeded, hleft]
    exact eventType_of_makes hevent rfl
  | failed _ _ hevent hleft =>
    rw [Attempt.succeeded, hleft]
    exact eventType_of_makes hevent rfl

/-- A sweep begins at the time of the clock, and is the only one that acts from then on. However the
messenger answers, unless a call is cancelled, it comes to its end. Then there is one attempt for each
row that was due, in their order: these were claimed and called for, and each either delivered its
message or released it with the failure of its last call. The sweep tells the number of those that it
delivered; one event was recorded for each attempt; and all other rows are as they were. -/
theorem each_due_row_is_attempted {c : Crew} (hc : c.store.WellNumbered)
    (hopen : c.store.closed = false) {policy : Policy}
    (hword : Cell.isWord policy.retryLimit = true) (hfits : policy.lease.Fits c.desk.now)
    (hready : ∀ r ∈ c.dueNow policy, r.IsReady) {ts : List Turn}
    (hts : (c.turn (.join policy c.desk.moment)).Throughout (Quiet c.sweeps.length) ts) :
    let run := .join policy c.desk.moment :: ts
    let c' := c.after run
    (∀ answer : Crew → Message.Payload → Except Failure String,
        (∀ c payload f, answer c payload = .error f → f.isCancellation = false) →
        ∃ n, (c'.after (c'.nextTurns c.sweeps.length answer n)).HasEnded c.sweeps.length) ∧
      (c'.HasEnded c.sweeps.length →
        ∃ attempts : List Attempt,
          (c.dueNow policy).map Row.pending = attempts.map (fun a => .ok a.pending) ∧
          (∀ a ∈ attempts, a.Made policy c.store ∧ c'.store.find? a.pending.id = a.left) ∧
          c.along claim? run = (Attempt.ids attempts).map (c.sweeps.length, ·) ∧
          c.along call? run = (Attempt.allExchanges attempts).map (callOf c.sweeps.length) ∧
          (∃ s, c'.sweeps[c.sweeps.length]? = some s ∧
            s.outcome? = some (.ok (attempts.countP Attempt.succeeded))) ∧
          c'.store.events = c.store.events ++ attempts.map (·.event) ∧
          (∀ a ∈ attempts, a.event.eventType =
            if a.succeeded then "pending_message_sent" else "pending_message_error") ∧
          ∀ id, id ∉ (c.dueNow policy).map (·.id) → c'.store.find? id = c.store.find? id) := by
  intro run c'
  obtain ⟨listed, hlisted, hnodup, hids, hjoin⟩ := touring_join hc hopen hword hfits hready
  have htouring : c'.Touring c.sweeps.length policy c.store listed (c.along claim? run)
      (c.along call? run) := hjoin.after hnodup hts
  refine ⟨fun answer hanswer => htouring.exists_end hnodup hanswer, fun hended => ?_⟩
  obtain ⟨attempts, rfl, hledger, hclaims, hcalls, houtcome⟩ := htouring.exists_attempts hended
  refine ⟨attempts, ?_, hledger.made, hclaims, hcalls, houtcome, ?_, ?_, ?_⟩
  · rw [hlisted, List.map_map]
    rfl
  · rw [hledger.recorded, List.append_nil]
  · intro a ha
    exact eventType_of_made (hledger.made a ha).1
  · intro id hid
    apply hledger.others
    rw [← hids, List.map_map] at hid
    exact hid

/-! ## A sweep with a failure -/

/-- The messenger fails at the only recipient of the first message and reaches those of the second. -/
def failedFirst : List Turn :=
  [.advance 0, .answer 0 (.error (.collaborator .runtime [.text "down"])), .advance 0, .advance 0,
    .advance 0, .answer 0 (.ok "b"), .advance 0, .answer 0 (.ok "c"), .advance 0, .advance 0,
    .advance 0, .advance 0]

theorem quiet_failedFirst : bothListed.Throughout (Quiet 0) failedFirst := by
  refine ⟨?_, ?_, ?_, ?_, ?_, ?_, ?_, ?_, ?_, ?_, ?_, ?_, trivial⟩ <;> refine ⟨rfl, trivial, ?_⟩ <;>
    intro f hf <;> cases hf
  rfl

def twoDue : Crew :=
  (idle noon).after twoMessages

theorem twoDue_join : twoDue.turn (.join thrice twoDue.desk.moment) = bothListed :=
  after_twoMessages_join

theorem ready_twoDue : ∀ r ∈ twoDue.dueNow thrice, r.IsReady := by
  have hlegible : twoDue.store.Legible := by
    apply legible_after (isFresh_idle noon).wellNumbered Store.legible_empty
    intro t ht
    simp only [twoMessages, List.mem_cons, List.not_mem_nil, or_false] at ht
    rcases ht with rfl | rfl | rfl
    · exact ⟨none, rfl⟩
    · exact ⟨none, rfl⟩
    · trivial
  intro r hr
  have hrow := hlegible.rows r (Store.mem_dueRows hr).1
  obtain ⟨p, hp⟩ := hrow.readable
  exact ⟨p, hp, hrow.ready hp⟩

theorem each_due_row_is_attempted_failedFirst :
    thrice.lease.Fits twoDue.desk.now ∧ (∀ r ∈ twoDue.dueNow thrice, r.IsReady) ∧
      (twoDue.turn (.join thrice twoDue.desk.moment)).Throughout (Quiet twoDue.sweeps.length)
        failedFirst ∧
      ∃ attempts : List Attempt, Attempt.ids attempts = [1, 2] ∧
        attempts.countP Attempt.succeeded = 1 ∧
        ∀ a ∈ attempts, a.Made thrice twoDue.store ∧
          (twoDue.after (.join thrice twoDue.desk.moment :: failedFirst)).store.find? a.pending.id =
            a.left := by
  have hfresh := isFresh_idle noon
  have hwell : twoDue.store.WellNumbered := wellNumbered_after hfresh.wellNumbered twoMessages
  have hopen : twoDue.store.closed = false := closed_after hfresh.wellNumbered twoMessages
  have hfits : thrice.lease.Fits twoDue.desk.now := by decide +kernel
  have hplace : twoDue.sweeps.length = 0 := by decide +kernel
  have hquiet : (twoDue.turn (.join thrice twoDue.desk.moment)).Throughout
      (Quiet twoDue.sweeps.length) failedFirst := by
    rw [twoDue_join, hplace]
    exact quiet_failedFirst
  refine ⟨hfits, ready_twoDue, hquiet, ?_⟩
  obtain ⟨-, hattempts⟩ := each_due_row_is_attempted hwell hopen rfl hfits ready_twoDue hquiet
  rw [along, twoDue_join, hplace, after_cons, twoDue_join] at hattempts
  rw [after_cons, twoDue_join]
  obtain ⟨attempts, -, hmade, hclaims, -, ⟨s, hs, houtcome⟩, -⟩ := hattempts (by
    have hover : ((bothListed.after failedFirst).sweeps[0]?.any fun s => s.outcome?.isSome) = true := by
      decide +kernel
    exact (Option.any_eq_true ..).mp hover)
  have hseen : (bothListed.along claim? failedFirst).map (·.2) = [1, 2] := by decide +kernel
  have htold : ((bothListed.after failedFirst).sweeps[0]?.bind fun s =>
      s.outcome?.bind Except.toOption) = some 1 := by decide +kernel
  refine ⟨attempts, ?_, ?_, hmade⟩
  · have hsilent : twoDue.claim? (.join thrice twoDue.desk.moment) = none := rfl
    have hsame : ((fun claim : Nat × Int => claim.2) ∘ fun id => (0, id)) = id := rfl
    rw [hsilent, Option.toList_none, List.nil_append] at hclaims
    rw [hclaims, List.map_map, hsame, List.map_id] at hseen
    exact hseen
  · rw [hs, Option.bind_some, houtcome, Option.bind_some] at htold
    exact Option.some.inj htold

end Crew

end Courier.Outbox
