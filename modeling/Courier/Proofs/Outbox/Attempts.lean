import Courier.Proofs.Crew.Resumption
import Courier.Proofs.Outbox.Completion

/-!
# The attempts of a sweep

What a sweep does that nobody interferes with is a list of attempts, one for each message that it
listed: the calls of the messenger, the event that is recorded, and what is left of the row. While no
failure ends the sweep, each of its operations goes on with the attempt that it is at, and a failed
attempt is closed as a successful one is, before the next message is claimed.
-/

namespace Courier.Outbox

open Message (Payload)

/-- A call of the messenger and its answer. -/
structure Exchange where
  payload : Payload
  answer : Except Failure String

namespace Pending

def exchange (p : Pending) (recipient : String) (answer : Except Failure String) : Exchange :=
  ⟨⟨.text p.title, .text p.body, [recipient]⟩, answer⟩

/-- The calls for recipients that were reached, with their receipts. -/
def exchanges (p : Pending) (reached receipts : List String) : List Exchange :=
  List.zipWith (fun recipient receipt => p.exchange recipient (.ok receipt)) reached receipts

theorem exchanges_concat (p : Pending) {reached receipts : List String}
    (hlength : receipts.length = reached.length) (recipient receipt : String) :
    p.exchanges (reached ++ [recipient]) (receipts ++ [receipt]) =
      p.exchanges reached receipts ++ [p.exchange recipient (.ok receipt)] := by
  rw [exchanges, List.zipWith_append hlength.symm]
  rfl

/-- The calls for a message up to one that failed, and the row as it was then: it notes those that were
reached, in their order. -/
inductive Broken (p : Pending) (cause : Failure) (r r' : Row) : List Exchange → Prop where
  | intro {reached rest receipts : List String} {recipient : String}
    (hremaining : p.remaining = reached ++ recipient :: rest)
    (hlength : receipts.length = reached.length) (hlike : r.Resembles r')
    (hnotes : r'.Notes (p.delivered ++ reached.eraseDups)) :
    Broken p cause r r' (p.exchanges reached receipts ++ [p.exchange recipient (.error cause)])

end Pending

/-- An attempt to deliver a message. -/
structure Attempt where
  pending : Pending
  exchanges : List Exchange
  event : Event
  /-- The row after the attempt, unless it was deleted. -/
  left : Option Row

namespace Attempt

/-- The attempt delivered the message. -/
def succeeded (a : Attempt) : Bool :=
  a.left.isNone

/-- Either all recipients were reached, and the delivery is recorded; or the messenger failed at one of
them, and the row is released with that failure, which is recorded. -/
inductive Made (policy : Policy) (st₀ : Store) (a : Attempt) : Prop where
  | delivered {receipts : List String} (hlength : receipts.length = a.pending.remaining.length)
    (hexchanges : a.exchanges = a.pending.exchanges a.pending.remaining receipts)
    (hevent : (Sweep.sentEntry a.pending receipts).Makes a.event) (hleft : a.left = none)
  | failed {r r' : Row} {cause : Failure} (hr : st₀.find? a.pending.id = some r)
    (hbroken : a.pending.Broken cause r r' a.exchanges)
    (hevent : (a.pending.failure policy (r.attempts + 1) cause).Makes a.event)
    (hleft : a.left = some (r'.failed cause.message))

/-- The messages of attempts. -/
def ids (attempts : List Attempt) : List Int :=
  attempts.map (·.pending.id)

/-- The calls of attempts, one attempt after another. -/
def allExchanges (attempts : List Attempt) : List (Int × Exchange) :=
  attempts.flatMap fun a => a.exchanges.map (a.pending.id, ·)

theorem ids_concat (attempts : List Attempt) (a : Attempt) :
    ids (attempts ++ [a]) = ids attempts ++ [a.pending.id] :=
  List.map_append

theorem allExchanges_concat (attempts : List Attempt) (a : Attempt) :
    allExchanges (attempts ++ [a]) =
      allExchanges attempts ++ a.exchanges.map (a.pending.id, ·) := by
  simp [allExchanges]

end Attempt

/-- An attempt on its way: what the sweep does next, the row, the calls and the events so far. -/
inductive Pending.Underway (policy : Policy) (p : Pending) (r : Row) :
    Activity → Option Row → List Exchange → List Event → Prop where
  | sending {r' : Row} {reached rest receipts : List String} {recipient : String}
    (hremaining : p.remaining = reached ++ recipient :: rest)
    (hlength : receipts.length = reached.length) (hlike : r.Resembles r')
    (hnotes : r'.Notes (p.delivered ++ reached.eraseDups)) :
    Underway policy p r (.sending p recipient rest receipts) (some r')
      (p.exchanges reached receipts) []
  | noting {r' : Row} {reached rest receipts : List String} {recipient receipt : String}
    (hremaining : p.remaining = reached ++ recipient :: rest)
    (hlength : receipts.length = reached.length) (hlike : r.Resembles r')
    (hnotes : r'.Notes (p.delivered ++ reached.eraseDups)) :
    Underway policy p r (.noting p recipient rest (receipts ++ [receipt])) (some r')
      (p.exchanges (reached ++ [recipient]) (receipts ++ [receipt])) []
  | completing {r' : Row} {receipts : List String} (hlength : receipts.length = p.remaining.length) :
    Underway policy p r (.completing p receipts) (some r') (p.exchanges p.remaining receipts) []
  | confirming {receipts : List String} (hlength : receipts.length = p.remaining.length) :
    Underway policy p r (.confirming p receipts) none (p.exchanges p.remaining receipts) []
  | releasing {r' : Row} {cause : Failure} {calls : List Exchange}
    (hbroken : p.Broken cause r r' calls) :
    Underway policy p r (.releasing p cause) (some r') calls []
  | reporting {r' : Row} {cause : Failure} {calls : List Exchange}
    (hbroken : p.Broken cause r r' calls) :
    Underway policy p r (.reporting p (r.attempts + 1) cause) (some (r'.failed cause.message)) calls []
  | alerting {r' : Row} {cause : Failure} {calls : List Exchange} {event : Event}
    (hbroken : p.Broken cause r r' calls)
    (hevent : (p.failure policy (r.attempts + 1) cause).Makes event) :
    Underway policy p r (.alerting p (r.attempts + 1) cause) (some (r'.failed cause.message)) calls
      [event]

theorem Pending.Underway.pending {policy : Policy} {p : Pending} {r : Row} {a : Activity}
    {o : Option Row} {calls : List Exchange} {events : List Event}
    (h : p.Underway policy r a o calls events) : a.pending? = some p := by
  cases h <;> rfl

theorem Pending.underway_toNext {policy : Policy} {p : Pending} {r r' : Row}
    {reached rest receipts : List String} (hremaining : p.remaining = reached ++ rest)
    (hlength : receipts.length = reached.length) (hlike : r.Resembles r')
    (hnotes : r'.Notes (p.delivered ++ reached.eraseDups)) :
    p.Underway policy r (.toNext p receipts rest) (some r') (p.exchanges reached receipts) [] := by
  cases rest with
  | nil =>
    rw [List.append_nil] at hremaining
    rw [← hremaining] at hlength ⊢
    exact .completing hlength
  | cons recipient rest => exact .sending hremaining hlength hlike hnotes

/-! ## What was done so far -/

/-- Attempts that were made and what they left in the store: only the messages that were taken differ,
the events were recorded behind those of before, and the deliveries were counted. -/
structure Ledger (policy : Policy) (st₀ st : Store) (attempts : List Attempt) (taken : List Int)
    (delivered : Nat) (events : List Event) : Prop where
  made : ∀ a ∈ attempts, a.Made policy st₀ ∧ st.find? a.pending.id = a.left
  others : ∀ id, id ∉ taken → st.find? id = st₀.find? id
  recorded : st.events = st₀.events ++ attempts.map (·.event) ++ events
  counted : delivered = attempts.countP Attempt.succeeded

section ledger
variable {policy : Policy} {st₀ st st' : Store} {attempts : List Attempt} {taken : List Int}
  {delivered : Nat} {events : List Event} {k : Int}

/-- Nothing has been attempted. -/
theorem Ledger.opening : Ledger policy st₀ st₀ [] [] 0 [] := by
  refine ⟨fun a ha => ?_, fun _ _ => rfl, ?_, rfl⟩
  · cases ha
  · simp

/-- Something happened to a message that is no longer ahead, and none of those before. -/
theorem Ledger.keep (h : Ledger policy st₀ st attempts taken delivered events) (hk : k ∈ taken)
    (hne : ∀ a ∈ attempts, a.pending.id ≠ k)
    (hrows : ∀ id, id ≠ k → st'.find? id = st.find? id) {m : List Event}
    (hevents : st'.events = st.events ++ m) :
    Ledger policy st₀ st' attempts taken delivered (events ++ m) := by
  constructor
  · intro a ha
    obtain ⟨hmade, hleft⟩ := h.made a ha
    exact ⟨hmade, (hrows _ (hne a ha)).trans hleft⟩
  · intro id hid
    have hidk : id ≠ k := fun he => hid (he ▸ hk)
    exact (hrows id hidk).trans (h.others id hid)
  · rw [hevents, h.recorded, List.append_assoc _ events m]
  · exact h.counted

/-- An attempt comes to its end. -/
theorem Ledger.close {a : Attempt} (h : Ledger policy st₀ st attempts taken delivered [a.event])
    (hmade : a.Made policy st₀) (hleft : st.find? a.pending.id = a.left) :
    Ledger policy st₀ st (attempts ++ [a]) taken (delivered + if a.succeeded then 1 else 0) [] := by
  constructor
  · intro b hb
    rcases List.mem_append.mp hb with hb | hb
    · exact h.made b hb
    · rw [List.mem_singleton.mp hb]
      exact ⟨hmade, hleft⟩
  · exact h.others
  · rw [h.recorded, List.map_append, List.append_nil, List.append_assoc]
    rfl
  · rw [List.countP_append, h.counted, List.countP_singleton]

end ledger

namespace Sweep

/-- How far a sweep came with the messages that it listed. -/
inductive Tour (st₀ : Store) (listed : List Pending) (st : Store) (s : Sweep) :
    List Int → List (Int × Exchange) → Prop where
  | between {attempts : List Attempt}
    (hact : s.activity = .taking ∨ (s.activity = .ended none ∧ s.due = []))
    (hlisted : listed = attempts.map (·.pending) ++ s.due)
    (hledger : Ledger s.policy st₀ st attempts (Attempt.ids attempts) s.delivered []) :
    Tour st₀ listed st s (Attempt.ids attempts) (Attempt.allExchanges attempts)
  | within {attempts : List Attempt} {p : Pending} {r : Row} {calls : List Exchange}
    {events : List Event} (hr : st₀.find? p.id = some r)
    (hunderway : p.Underway s.policy r s.activity (st.find? p.id) calls events)
    (hlisted : listed = attempts.map (·.pending) ++ p :: s.due)
    (hledger : Ledger s.policy st₀ st attempts (Attempt.ids attempts ++ [p.id]) s.delivered
      events) :
    Tour st₀ listed st s (Attempt.ids attempts ++ [p.id])
      (Attempt.allExchanges attempts ++ calls.map (p.id, ·))

variable {s : Sweep} {d : Desk} {st₀ : Store} {listed : List Pending} {taken : List Int}
  {made : List (Int × Exchange)}

/-! ## One operation -/

theorem claims?_of_claimable (hst : d.store.WellNumbered) {p : Pending} {due : List Pending}
    (hact : s.activity = .taking) (hdue : s.due = p :: due) (hadmits : d.store.Admits p.id)
    (hfits : s.policy.lease.Fits d.now) {r : Row} (hr : d.store.find? p.id = some r)
    (hclaimable : Store.isClaimable (s.policy.lease.cutoffText d.now) r = true) :
    s.claims? d = some p.id := by
  have hmoment := Calendar.Moment.utc?_ofInstant d.now
  have hclaim := Store.claim_eq hst hmoment (staleCutoff_eq hmoment hfits) hadmits
  rw [hr, Option.any_some, hclaimable] at hclaim
  unfold claims?
  rw [hact, hdue]
  dsimp only [Desk.moment]
  rw [hclaim]

section within
variable {attempts : List Attempt} {p : Pending} {calls : List Exchange} {events : List Event}
  (hnodup : (listed.map (·.id)).Nodup)
  (hlisted : listed = attempts.map (·.pending) ++ p :: s.due)
  (hledger : Ledger s.policy st₀ d.store attempts (Attempt.ids attempts ++ [p.id])
    s.delivered events)
include hnodup hlisted

theorem ne_of_attempted : ∀ a ∈ attempts, a.pending.id ≠ p.id := by
  intro a ha
  exact id_ne_of_listed (hlisted ▸ hnodup) a.pending (List.mem_map_of_mem ha)

include hledger

/-- The sweep goes on with the attempt. -/
theorem Tour.stay {st' : Store} {a : Activity} {m : List Event} {r : Row}
    (hr : st₀.find? p.id = some r)
    (hunderway : p.Underway s.policy r a (st'.find? p.id) calls (events ++ m))
    (hrows : ∀ id, id ≠ p.id → st'.find? id = d.store.find? id)
    (hevents : st'.events = d.store.events ++ m) :
    Tour st₀ listed st' (s.turnTo a) (Attempt.ids attempts ++ [p.id])
      (Attempt.allExchanges attempts ++ calls.map (p.id, ·)) := by
  refine Tour.within (s := s.turnTo a) hr hunderway hlisted ?_
  exact hledger.keep (by simp) (ne_of_attempted hnodup hlisted) hrows hevents

/-- The attempt is closed, and the sweep turns to the next message. -/
theorem Tour.close {s' : Sweep} {st' : Store} {a : Attempt} (hp : a.pending = p)
    (hmade : a.Made s.policy st₀) (hrows : ∀ id, st'.find? id = d.store.find? id)
    (hleft : d.store.find? p.id = a.left) {m : List Event}
    (hevents : st'.events = d.store.events ++ m) (hevent : events ++ m = [a.event])
    (hpolicy : s'.policy = s.policy) (hdue : s'.due = s.due) (hact : s'.activity = .taking)
    (hdelivered : s'.delivered = s.delivered + if a.succeeded then 1 else 0) :
    Tour st₀ listed st' s' (Attempt.ids attempts ++ [p.id])
      (Attempt.allExchanges attempts ++
        a.exchanges.map (p.id, ·)) := by
  subst hp
  have hkept := hledger.keep (by simp) (ne_of_attempted hnodup hlisted) (fun id _ => hrows id) hevents
  rw [hevent] at hkept
  have hclosed := hkept.close hmade ((hrows _).trans hleft)
  rw [← Attempt.ids_concat, ← Attempt.allExchanges_concat]
  rw [← Attempt.ids_concat] at hclosed
  apply Tour.between (Or.inl hact)
  · rw [hlisted, hdue, List.map_append, List.append_assoc]
    rfl
  · rw [hpolicy, hdelivered]
    exact hclosed

end within

section advance
variable (hst : d.store.WellNumbered)
include hst

theorem advance_taking {p : Pending} {due : List Pending} (hact : s.activity = .taking)
    (hdue : s.due = p :: due) (hadmits : d.store.Admits p.id) (hfits : s.policy.lease.Fits d.now)
    {r : Row} (hr : d.store.find? p.id = some r)
    (hclaimable : Store.isClaimable (s.policy.lease.cutoffText d.now) r = true) :
    s.claims? d = some p.id ∧
      (s.advance d).2 = { s with due, activity := .toNext p [] p.remaining } ∧
      ∃ claimedAt, (s.advance d).1.store = d.store.modify p.id (Row.claimed claimedAt) := by
  have hclaims := claims?_of_claimable hst hact hdue hadmits hfits hr hclaimable
  obtain ⟨q, due', _, _, claimedAt, -, hdue', hid, -, -, -, -, hs', hst'⟩ :=
    (advance_step (s := s) hst).of_claims hclaims
  rw [hdue] at hdue'
  cases hdue'
  exact ⟨hclaims, hs', claimedAt, hst'⟩

variable (hnodup : (listed.map (·.id)).Nodup)
include hnodup

theorem Tour.take {attempts : List Attempt} {p : Pending} {due : List Pending} {r : Row}
    (hact : s.activity = .taking) (hdue : s.due = p :: due)
    (hlisted : listed = attempts.map (·.pending) ++ s.due)
    (hledger : Ledger s.policy st₀ d.store attempts (Attempt.ids attempts) s.delivered [])
    (hadmits : d.store.Admits p.id) (hfits : s.policy.lease.Fits d.now)
    (hr : st₀.find? p.id = some r) (hpending : r.pending = .ok p)
    (hclaimable : Store.isClaimable (s.policy.lease.cutoffText d.now) r = true) :
    Tour st₀ listed (s.advance d).1.store (s.advance d).2
      (Attempt.ids attempts ++ (s.claims? d).toList) (Attempt.allExchanges attempts) := by
  rw [hdue] at hlisted
  have hne : ∀ a ∈ attempts, a.pending.id ≠ p.id := by
    intro a ha
    exact id_ne_of_listed (hlisted ▸ hnodup) a.pending (List.mem_map_of_mem ha)
  have hrow : d.store.find? p.id = some r := by
    rw [hledger.others p.id, hr]
    intro hmem
    obtain ⟨a, ha, hid⟩ := List.mem_map.mp hmem
    exact hne a ha hid
  obtain ⟨hclaims, hs', claimedAt, hst'⟩ :=
    advance_taking hst hact hdue hadmits hfits hrow hclaimable
  obtain ⟨-, -, -, -, -, hdelivered⟩ := Row.pending_ok hpending
  have hrows (id : Int) (hid : id ≠ p.id) :
      (s.advance d).1.store.find? id = d.store.find? id := by
    rw [hst', Store.find?_modify (Row.keepsId_claimed claimedAt), if_neg hid]
  have hclaimed : (s.advance d).1.store.find? p.id = some (r.claimed claimedAt) := by
    rw [hst', Store.find?_modify_self (Row.keepsId_claimed claimedAt), hrow]
    rfl
  have hunderway : p.Underway s.policy r (.toNext p [] p.remaining)
      ((s.advance d).1.store.find? p.id) [] [] := by
    rw [hclaimed]
    have hnotes : (r.claimed claimedAt).Notes (p.delivered ++ ([] : List String).eraseDups) := by
      rw [List.eraseDups_nil, List.append_nil]
      exact hdelivered
    exact Pending.underway_toNext (List.nil_append _).symm rfl rfl hnotes
  have htaken : Ledger s.policy st₀ d.store attempts (Attempt.ids attempts ++ [p.id]) s.delivered [] :=
    ⟨hledger.made, fun id hid => hledger.others id fun h => hid (List.mem_append_left _ h),
      hledger.recorded, hledger.counted⟩
  have hkept : Ledger s.policy st₀ (s.advance d).1.store attempts (Attempt.ids attempts ++ [p.id])
      s.delivered ([] ++ []) :=
    htaken.keep (by simp) hne hrows (by rw [hst']; exact (List.append_nil _).symm)
  rw [hclaims]
  have hwithin : Tour st₀ listed (s.advance d).1.store (s.advance d).2
      (Attempt.ids attempts ++ [p.id]) (Attempt.allExchanges attempts ++ [].map (p.id, ·)) :=
    .within hr (by rw [hs']; exact hunderway) (by rw [hs']; exact hlisted) (by rw [hs']; exact hkept)
  simpa using hwithin

section work
variable {attempts : List Attempt} {p : Pending} {r : Row} {calls : List Exchange}
  {events : List Event} (hr : st₀.find? p.id = some r)
  (hlisted : listed = attempts.map (·.pending) ++ p :: s.due)
  (hledger : Ledger s.policy st₀ d.store attempts (Attempt.ids attempts ++ [p.id]) s.delivered events)
include hr hlisted hledger

theorem Tour.note {r' : Row} {reached rest receipts : List String} {recipient receipt : String}
    (hact : s.activity = .noting p recipient rest (receipts ++ [receipt]))
    (hadmits : d.store.Admits p.id) (hrow : d.store.find? p.id = some r')
    (hremaining : p.remaining = reached ++ recipient :: rest)
    (hlength : receipts.length = reached.length) (hlike : r.Resembles r')
    (hnotes : r'.Notes (p.delivered ++ reached.eraseDups)) (hevents : events = []) :
    Tour st₀ listed (s.advance d).1.store (s.advance d).2 (Attempt.ids attempts ++ [p.id])
      (Attempt.allExchanges attempts ++
        (p.exchanges (reached ++ [recipient]) (receipts ++ [receipt])).map (p.id, ·)) := by
  obtain ⟨hs', hst'⟩ := (advance_step (s := s) hst).of_noting hact hadmits hrow hnotes
  rw [hs', hst']
  have hnoted : (d.store.modify p.id (Row.noted (p.delivered ++ reached.eraseDups) recipient)).find?
      p.id = some (r'.noted (p.delivered ++ reached.eraseDups) recipient) := by
    rw [Store.find?_modify_self (Row.keepsId_noted _ _), hrow]
    rfl
  apply Tour.stay hnodup hlisted hledger hr (m := [])
  · rw [hnoted, hevents]
    apply Pending.underway_toNext
    · rw [hremaining, List.append_assoc]
      rfl
    · simp [hlength]
    · exact hlike.trans (Row.resembles_noted _ _ _)
    · exact Pending.withNoted_reached hremaining ▸ Row.notes_noted hnotes recipient
  · intro id hid
    rw [Store.find?_modify (Row.keepsId_noted _ _), if_neg hid]
  · exact (List.append_nil _).symm

theorem Tour.complete {receipts : List String} (hact : s.activity = .completing p receipts)
    (hadmits : d.store.Admits p.id) (hlength : receipts.length = p.remaining.length)
    (hcalls : calls = p.exchanges p.remaining receipts) (hevents : events = []) :
    Tour st₀ listed (s.advance d).1.store (s.advance d).2 (Attempt.ids attempts ++ [p.id])
      (Attempt.allExchanges attempts ++ calls.map (p.id, ·)) := by
  have hnext : s.advance d =
      ({ d with store := d.store.remove fun r => r.id == p.id }, s.turnTo (.confirming p receipts)) := by
    rw [advance, hact]
    exact perform_of_ok (Store.complete_of_admits hadmits)
  have hgone : (d.store.remove fun r => r.id == p.id).find? p.id = none :=
    Store.find?_eq_none_iff.mpr fun r hr => by simpa using (List.mem_filter.mp hr).2
  rw [hnext]
  apply Tour.stay hnodup hlisted hledger hr (m := [])
  · rw [hgone, hcalls, hevents]
    exact .confirming hlength
  · intro id hid
    rw [Store.find?_remove hst]
    cases hrow : d.store.find? id with
    | none => rfl
    | some r' => simp [Store.id_of_find? hrow, hid]
  · exact (List.append_nil _).symm

omit hst hr in
theorem Tour.confirm {receipts : List String} (hact : s.activity = .confirming p receipts)
    (hintact : ∀ f, (s.advance d).2.activity ≠ .ended (some f)) (hrow : d.store.find? p.id = none)
    (hlength : receipts.length = p.remaining.length)
    (hcalls : calls = p.exchanges p.remaining receipts) (hevents : events = []) :
    Tour st₀ listed (s.advance d).1.store (s.advance d).2 (Attempt.ids attempts ++ [p.id])
      (Attempt.allExchanges attempts ++ calls.map (p.id, ·)) := by
  rcases advance_confirming (d := d) hact with ⟨hrecorded, hs'⟩ | ⟨f, -, he⟩
  · obtain ⟨event, hmakes, hadded⟩ := hrecorded.events
    rw [hs']
    refine Tour.close hnodup hlisted hledger (a := ⟨p, calls, event, none⟩) rfl ?_ ?_ hrow hadded ?_
      rfl rfl rfl rfl
    · exact .delivered hlength hcalls hmakes rfl
    · intro id
      rw [Store.find?, Store.find?, hrecorded.sameRows.rows]
    · rw [hevents]
      rfl
  · rw [he] at hintact
    exact absurd rfl (hintact f)

omit hst in
theorem Tour.release {r' : Row} {cause : Failure} (hact : s.activity = .releasing p cause)
    (hadmits : d.store.Admits p.id) (hrow : d.store.find? p.id = some r')
    (hbroken : p.Broken cause r r' calls) (hevents : events = []) :
    Tour st₀ listed (s.advance d).1.store (s.advance d).2 (Attempt.ids attempts ++ [p.id])
      (Attempt.allExchanges attempts ++ calls.map (p.id, ·)) := by
  have hattempts : r'.attempts = r.attempts := by
    obtain ⟨-, -, hlike, -⟩ := hbroken
    rw [hlike]
  rw [advance_releasing hact hadmits hrow, hattempts]
  apply Tour.stay hnodup hlisted hledger hr (m := [])
  · rw [Store.find?_modify_self (Row.keepsId_failed _), hrow, hevents]
    exact .reporting hbroken
  · intro id hid
    rw [Store.find?_modify (Row.keepsId_failed _), if_neg hid]
  · exact (List.append_nil _).symm

omit hst in
theorem Tour.report {r' : Row} {cause : Failure}
    (hact : s.activity = .reporting p (r.attempts + 1) cause)
    (hintact : ∀ f, (s.advance d).2.activity ≠ .ended (some f))
    (hrow : d.store.find? p.id = some (r'.failed cause.message))
    (hbroken : p.Broken cause r r' calls) (hevents : events = []) :
    Tour st₀ listed (s.advance d).1.store (s.advance d).2 (Attempt.ids attempts ++ [p.id])
      (Attempt.allExchanges attempts ++ calls.map (p.id, ·)) := by
  rcases advance_reporting (d := d) hact with ⟨hrecorded, hs'⟩ | ⟨f, -, he⟩
  · obtain ⟨event, hmakes, hadded⟩ := hrecorded.events
    have hrows (id : Int) : (s.advance d).1.store.find? id = d.store.find? id := by
      rw [Store.find?, Store.find?, hrecorded.sameRows.rows]
    rw [hs']
    split
    · apply Tour.stay hnodup hlisted hledger hr (m := [event])
      · rw [hrows, hrow, hevents]
        exact .alerting hbroken hmakes
      · exact fun id _ => hrows id
      · exact hadded
    · refine Tour.close hnodup hlisted hledger
        (a := ⟨p, calls, event, some (r'.failed cause.message)⟩) rfl ?_ hrows hrow hadded ?_ rfl rfl
        rfl rfl
      · exact .failed hr hbroken hmakes rfl
      · rw [hevents]
        rfl
  · rw [he] at hintact
    exact absurd rfl (hintact f)

theorem Tour.work (hopen : d.store.closed = false) (hfits : s.policy.lease.Fits d.now)
    (hsound : s.Sound)
    (hunderway : p.Underway s.policy r s.activity (d.store.find? p.id) calls events) :
    Tour st₀ listed (s.advance d).1.store (s.advance d).2 (Attempt.ids attempts ++ [p.id])
      (Attempt.allExchanges attempts ++ calls.map (p.id, ·)) := by
  have hadmits := hsound.admits hopen hunderway.pending
  have hintact := Sound.advance_intact hst hopen hfits hsound
  have hwaiting (hbusy : s.isBusy = false) (hrow : d.store.find? p.id = d.store.find? p.id) :
      Tour st₀ listed (s.advance d).1.store (s.advance d).2 (Attempt.ids attempts ++ [p.id])
        (Attempt.allExchanges attempts ++ calls.map (p.id, ·)) := by
    obtain ⟨hs', hst'⟩ := (advance_step (s := s) hst).of_not_busy hbusy
    rw [hs', hst']
    exact .within hr hunderway hlisted hledger
  generalize hact : s.activity = a at hunderway
  generalize hrow : d.store.find? p.id = o at hunderway
  cases hunderway with
  | sending | alerting => exact hwaiting (by rw [isBusy, hact]) rfl
  | noting hremaining hlength hlike hnotes =>
    exact Tour.note hst hnodup hr hlisted hledger hact hadmits hrow hremaining hlength hlike hnotes rfl
  | completing hlength =>
    exact Tour.complete hst hnodup hr hlisted hledger hact hadmits hlength rfl rfl
  | confirming hlength =>
    exact Tour.confirm hnodup hlisted hledger hact hintact hrow hlength rfl rfl
  | releasing hbroken =>
    exact Tour.release hnodup hr hlisted hledger hact hadmits hrow hbroken rfl
  | reporting hbroken =>
    exact Tour.report hnodup hr hlisted hledger hact hintact hrow hbroken rfl

end work

/-- The listed messages are rows that could be claimed when they were listed, and can be now. -/
def Claimable (st₀ : Store) (listed : List Pending) (lease : Lease) (now : Calendar.Instant) : Prop :=
  ∀ p ∈ listed, ∃ r, st₀.find? p.id = some r ∧ r.pending = .ok p ∧
    Store.isClaimable (lease.cutoffText now) r = true

/-- Every operation goes on with the attempts. -/
theorem Tour.advance (h : Tour st₀ listed d.store s taken made) (hopen : d.store.closed = false)
    (hfits : s.policy.lease.Fits d.now) (hsound : s.Sound)
    (hclaimable : Claimable st₀ listed s.policy.lease d.now) :
    Tour st₀ listed (s.advance d).1.store (s.advance d).2 (taken ++ (s.claims? d).toList) made := by
  cases h with
  | @between attempts hact hlisted hledger =>
    rcases hact with hact | ⟨hact, hdue⟩
    · cases hdue : s.due with
      | nil =>
        have hnext : s.advance d = (d, s.turnTo (.ended none)) := by
          rw [Sweep.advance, hact]
          dsimp only [Sweep.take]
          rw [hdue]
        have hclaims : s.claims? d = none := by simp [claims?, hact, hdue]
        rw [hnext, hclaims, Option.toList_none, List.append_nil]
        exact .between (Or.inr ⟨rfl, hdue⟩) hlisted hledger
      | cons p due =>
        have hp : p ∈ s.due := by simp [hdue]
        obtain ⟨r, hr, hpending, hclaim⟩ := hclaimable p (by simp [hlisted, hp])
        have hadmits : d.store.Admits p.id := ⟨hopen, (hsound.due p hp).isWord⟩
        exact Tour.take hst hnodup hact hdue hlisted hledger hadmits hfits hr hpending hclaim
    · obtain ⟨hs', hst'⟩ := (advance_step (s := s) hst).of_not_busy (by rw [isBusy, hact])
      have hclaims : s.claims? d = none := claims?_of_not_taking (by simp [hact]) d
      rw [hs', hst', hclaims, Option.toList_none, List.append_nil]
      exact .between (Or.inr ⟨hact, hdue⟩) hlisted hledger
  | within hr hunderway hlisted hledger =>
    have hclaims : s.claims? d = none := by
      apply claims?_of_not_taking
      intro hact
      have hpending := hunderway.pending
      rw [hact] at hpending
      cases hpending
    rw [hclaims, Option.toList_none, List.append_nil]
    exact Tour.work hst hnodup hr hlisted hledger hopen hfits hsound hunderway

end advance

/-! ## One answer -/

/-- The call that the sweep makes for a message, with its answer. -/
def exchange? (answer : Except Failure String) (s : Sweep) : Option (Int × Exchange) :=
  match s.activity with
  | .sending p recipient _ _ => some (p.id, p.exchange recipient answer)
  | _ => none

/-- Every answer that does not cancel the call goes on with the attempts. -/
theorem Tour.answered (hnodup : (listed.map (·.id)).Nodup)
    (h : Tour st₀ listed d.store s taken made) {answer : Except Failure String}
    (hanswer : ∀ f, answer = .error f → f.isCancellation = false) :
    Tour st₀ listed d.store (s.answered answer d).2 taken
      (made ++ (s.exchange? answer).toList) := by
  have hignored (hnone : s.exchange? answer = none) (hnext : (s.answered answer d).2 = s) :
      Tour st₀ listed d.store (s.answered answer d).2 taken
        (made ++ (s.exchange? answer).toList) := by
    rw [hnone, hnext, Option.toList_none, List.append_nil]
    exact h
  cases h with
  | between hact =>
    apply hignored
    · rcases hact with hact | ⟨hact, -⟩ <;> rw [exchange?, hact]
    · rcases hact with hact | ⟨hact, -⟩ <;> simp [Sweep.answered, hact]
  | @within attempts p r calls events hr hunderway hlisted hledger =>
    have hbusy (hbusy : s.isBusy = true) (hnone : s.exchange? answer = none) :=
      hignored hnone (by rw [answered_of_busy hbusy])
    generalize hact : s.activity = a at hunderway
    generalize hrow : d.store.find? p.id = o at hunderway
    cases hunderway with
    | @sending r' reached rest receipts recipient hremaining hlength hlike hnotes =>
      have hexchange : s.exchange? answer = some (p.id, p.exchange recipient answer) := by
        rw [exchange?, hact]
      have hmade : (p.exchanges reached receipts).map (p.id, ·) ++ (s.exchange? answer).toList =
          (p.exchanges reached receipts ++ [p.exchange recipient answer]).map (p.id, ·) := by
        rw [hexchange, List.map_append]
        rfl
      rw [List.append_assoc, hmade]
      have hunchanged : d.store.events = d.store.events ++ [] := (List.append_nil _).symm
      cases answer with
      | ok receipt =>
        rw [answered_ok hact, ← p.exchanges_concat hlength]
        apply Tour.stay hnodup hlisted hledger hr ?_ (fun _ _ => rfl) hunchanged
        rw [hrow]
        exact .noting hremaining hlength hlike hnotes
      | error f =>
        rw [answered_error hact, hanswer f rfl]
        apply Tour.stay hnodup hlisted hledger hr ?_ (fun _ _ => rfl) hunchanged
        rw [hrow]
        exact .releasing (.intro hremaining hlength hlike hnotes)
    | @alerting r' cause calls event hbroken hevent =>
      have hnone : s.exchange? answer = none := by rw [exchange?, hact]
      have hnext : (s.answered answer d).2 = s.turnTo .taking := by
        cases answer with
        | ok receipt => simp [Sweep.answered, hact]
        | error f => simp [Sweep.answered, hact, hanswer f rfl]
      rw [hnone, hnext, Option.toList_none, List.append_nil]
      exact Tour.close hnodup hlisted hledger (m := [])
        (a := ⟨p, calls, event, some (r'.failed cause.message)⟩) rfl (.failed hr hbroken hevent rfl)
        (fun _ => rfl) hrow (List.append_nil _).symm rfl rfl rfl rfl rfl
    | noting | completing | confirming | releasing | reporting =>
      exact hbusy (by rw [isBusy, hact]) (by rw [exchange?, hact])

end Sweep

end Courier.Outbox
