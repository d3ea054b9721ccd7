import Courier.Proofs.Outbox.Records

/-!
# How a sweep treats its messages

A sweep that nobody else interferes with treats the messages in the order of its list. Those before
the one that it is at work on are done with (`Pending.Treated`), that one is in a stage that shows in
what the sweep does next (`Pending.Stage`), and nothing happened to any other row. `Sweep.Course` says
so of a sweep on its way, and every operation and every answer keep it.
-/

namespace Courier.Outbox

/-- At most the claim and the recipients that are noted differ. -/
def Row.Resembles (r r' : Row) : Prop :=
  r' = { r with claimedAt := r'.claimedAt, deliveredJson := r'.deliveredJson }

theorem Row.Resembles.trans {r r' r'' : Row} (h : r.Resembles r') (h' : r'.Resembles r'') :
    r.Resembles r'' := by
  rw [Resembles, h', h]

theorem Row.resembles_noted (r : Row) (delivered : List String) (recipient : String) :
    r.Resembles (r.noted delivered recipient) := by
  unfold noted
  split
  · rfl
  · rfl

/-- The event of an entry is in the audit log. -/
def Store.Records (st : Store) (e : Entry) : Prop :=
  ∃ event ∈ st.events, e.Makes event

theorem Store.Records.mono {st st' : Store} {e : Entry} (h : st.Records e)
    (hevents : st.events <+: st'.events) : st'.Records e := by
  obtain ⟨event, hmem, hmakes⟩ := h
  exact ⟨event, hevents.subset hmem, hmakes⟩

/-- The message that an activity is about. -/
def Activity.pending? : Activity → Option Pending
  | taking | ended _ => none
  | sending p _ _ _ | noting p _ _ _ | completing p _ | confirming p _ | releasing p _
  | reporting p _ _ | alerting p _ _ | returning p _ => some p

theorem Activity.pending?_toNext (p : Pending) (receipts rest : List String) :
    (toNext p receipts rest).pending? = some p := by
  cases rest <;> rfl

namespace Pending

/-! ## Stages -/

/-- The row is as it was before, up to its claim and the recipients that are noted. -/
inductive Kept (p : Pending) (st₀ st : Store) : Prop where
  | intro {r r' : Row} (hr : st₀.find? p.id = some r) (hr' : st.find? p.id = some r')
    (hlike : r.Resembles r')

/-- The row was released after a failure, which is counted and noted. -/
inductive Released (p : Pending) (attempts : Int) (cause : Failure) (st₀ st : Store) : Prop where
  | intro {r r' : Row} (hr : st₀.find? p.id = some r)
    (hr' : st.find? p.id = some (r'.failed cause.message)) (hlike : r.Resembles r')
    (hattempts : attempts = r.attempts + 1)

def failure (policy : Policy) (p : Pending) (attempts : Int) (cause : Failure) : Entry :=
  Sweep.errorEntry p (Sweep.severity (policy.retryLimit ≤ attempts)) attempts cause

/-- The sweep is done with the message. -/
inductive Treated (policy : Policy) (p : Pending) (st₀ st : Store) : Prop where
  /-- Somebody else had claimed it. -/
  | passed {r : Row} (hr : st₀.find? p.id = some r) (hclaimed : r.claimedAt ≠ none)
    (hr' : st.find? p.id = some r)
  | delivered {receipts : List String} (hgone : st.find? p.id = none)
    (hrecords : st.Records (Sweep.sentEntry p receipts))
  | failed {attempts : Int} {cause : Failure} (hreleased : p.Released attempts cause st₀ st)
    (hrecords : st.Records (p.failure policy attempts cause))

/-- The sweep is at work on the message. -/
inductive Stage (policy : Policy) (p : Pending) (st₀ st : Store) : Activity → Prop where
  | held {a : Activity} (hpending : a.pending? = some p) (hholding : a.holding? = some p.id)
    (hkept : p.Kept st₀ st) (hadmits : st.Admits p.id) : Stage policy p st₀ st a
  | confirming {receipts : List String} (hgone : st.find? p.id = none) :
    Stage policy p st₀ st (.confirming p receipts)
  | reporting {attempts : Int} {cause : Failure} (hreleased : p.Released attempts cause st₀ st) :
    Stage policy p st₀ st (.reporting p attempts cause)
  | alerting {attempts : Int} {cause : Failure} (hreleased : p.Released attempts cause st₀ st)
    (hrecords : st.Records (p.failure policy attempts cause))
    (halerts : Sweep.alerts policy attempts = true) :
    Stage policy p st₀ st (.alerting p attempts cause)

theorem Released.of_find?_eq {p : Pending} {attempts : Int} {cause : Failure} {st₀ st st' : Store}
    (h : p.Released attempts cause st₀ st) (hrow : st'.find? p.id = st.find? p.id) :
    p.Released attempts cause st₀ st' := by
  obtain ⟨hr, hr', hlike, hattempts⟩ := h
  exact ⟨hr, hrow.trans hr', hlike, hattempts⟩

theorem Treated.mono {policy : Policy} {p : Pending} {st₀ st st' : Store}
    (h : p.Treated policy st₀ st) (hrow : st'.find? p.id = st.find? p.id)
    (hevents : st.events <+: st'.events) : p.Treated policy st₀ st' := by
  cases h with
  | passed hr hclaimed hr' => exact .passed hr hclaimed (hrow.trans hr')
  | delivered hgone hrecords => exact .delivered (hrow.trans hgone) (hrecords.mono hevents)
  | failed hreleased hrecords =>
    exact .failed (hreleased.of_find?_eq hrow) (hrecords.mono hevents)

theorem Stage.pending {policy : Policy} {p : Pending} {st₀ st : Store} {a : Activity}
    (h : p.Stage policy st₀ st a) : a.pending? = some p := by
  cases h with
  | held hpending => exact hpending
  | confirming | reporting | alerting => rfl

end Pending

/-! ## The course of a sweep -/

/-- The sweep is done with the messages before, and only those that it took have other rows. -/
structure Frame (policy : Policy) (st₀ st : Store) (before taken : List Pending) : Prop where
  treated : ∀ q ∈ before, q.Treated policy st₀ st
  kept : ∀ id, (∀ q ∈ taken, q.id ≠ id) → st.find? id = st₀.find? id

theorem Frame.mono {policy : Policy} {st₀ st st' : Store} {before taken : List Pending}
    {p : Pending} (h : Frame policy st₀ st before taken) (hp : p ∈ taken)
    (hbefore : ∀ q ∈ before, q.id ≠ p.id)
    (hrows : ∀ id, id ≠ p.id → st'.find? id = st.find? id) (hevents : st.events <+: st'.events) :
    Frame policy st₀ st' before taken where
  treated q hq := (h.treated q hq).mono (hrows q.id (hbefore q hq)) hevents
  kept id hid := (hrows id (hid p hp).symm).trans (h.kept id hid)

theorem Frame.done {policy : Policy} {st₀ st : Store} {before : List Pending} {p : Pending}
    (h : Frame policy st₀ st before (before ++ [p])) (hp : p.Treated policy st₀ st) :
    Frame policy st₀ st (before ++ [p]) (before ++ [p]) where
  treated q hq := by
    rcases List.mem_append.mp hq with hq | hq
    · exact h.treated q hq
    · exact List.mem_singleton.mp hq ▸ hp
  kept := h.kept

namespace Sweep

inductive Course (st₀ : Store) (listed : List Pending) (st : Store) (s : Sweep) : Prop where
  | between {before : List Pending} (hact : s.activity = .taking)
    (hlisted : listed = before ++ s.due) (hframe : Frame s.policy st₀ st before before)
  | within {before : List Pending} {p : Pending} (hstage : p.Stage s.policy st₀ st s.activity)
    (hlisted : listed = before ++ p :: s.due) (hframe : Frame s.policy st₀ st before (before ++ [p]))

variable {s : Sweep} {d : Desk} {st₀ : Store} {listed : List Pending}

theorem Step.others_kept {s' : Sweep} {st' : Store} (h : s.Step d s' st')
    (hst : d.store.WellNumbered) {k : Int} (hholding : ∀ id, s.activity.holding? = some id → id = k)
    (hclaims : ∀ id, s.claims? d = some id → id = k) (id : Int) (hid : id ≠ k) :
    st'.find? id = d.store.find? id := by
  apply (h.touch hst id).eq_of_not_holding
  · exact fun hheld => hid (hholding id hheld)
  · exact fun hclaimed => hid (hclaims id hclaimed)

/-- A message is not listed twice. -/
theorem id_ne_of_listed {before rest : List Pending} {p : Pending}
    (hnodup : ((before ++ p :: rest).map (·.id)).Nodup) : ∀ q ∈ before, q.id ≠ p.id := by
  intro q hq hid
  rw [List.map_append, List.map_cons] at hnodup
  have hdisjoint := (List.nodup_append.mp hnodup).2.2 q.id (List.mem_map_of_mem hq) p.id (by simp)
  exact hdisjoint hid

section onward
variable {before : List Pending} {p : Pending} {st' : Store} (hnodup : (listed.map (·.id)).Nodup)
  (hlisted : listed = before ++ p :: s.due)
  (hframe : Frame s.policy st₀ d.store before (before ++ [p]))
  (hrows : ∀ id, id ≠ p.id → st'.find? id = d.store.find? id)
  (hevents : d.store.events <+: st'.events)
include hnodup hlisted hframe hrows hevents

/-- The sweep goes on with the message. -/
theorem Course.stay {a : Activity} (hstage : p.Stage s.policy st₀ st' a) :
    Course st₀ listed st' (s.turnTo a) := by
  have hne := id_ne_of_listed (hlisted ▸ hnodup)
  exact .within hstage hlisted (hframe.mono (by simp) hne hrows hevents)

/-- The sweep is done with the message. -/
theorem Course.finish {s' : Sweep} (htreated : p.Treated s.policy st₀ st')
    (hact : s'.activity = .taking) (hdue : s'.due = s.due) (hpolicy : s'.policy = s.policy) :
    Course st₀ listed st' s' := by
  have hne := id_ne_of_listed (hlisted ▸ hnodup)
  have hframe' := hframe.mono (by simp) hne hrows hevents
  have hlisted' : listed = (before ++ [p]) ++ s'.due := by simp [hlisted, hdue]
  refine .between hact hlisted' ?_
  rw [hpolicy]
  exact hframe'.done htreated

end onward

section course
variable (hst : d.store.WellNumbered) (hnodup : (listed.map (·.id)).Nodup)
  (hrows : ∀ q ∈ listed, st₀.find? q.id ≠ none)
  (hlive : ∀ f, (s.advance d).2.activity ≠ .ended f)
include hst hnodup hlive

include hrows in
theorem Course.take {before : List Pending} (hact : s.activity = .taking)
    (hlisted : listed = before ++ s.due) (hframe : Frame s.policy st₀ d.store before before) :
    Course st₀ listed (s.advance d).1.store (s.advance d).2 := by
  have hstep := advance_step (s := s) hst
  have hpassed (p : Pending) (due : List Pending) (r : Row) (hdue : s.due = p :: due) :=
    claimed_of_passed (r := r) hst hact hdue
  have hothers := fun id => hstep.others_kept hst (k := id) (by simp [hact, Activity.holding?])
  generalize (s.advance d).2 = s' at *
  generalize (s.advance d).1.store = st' at *
  cases hstep with
  | still hbusy => simp [isBusy, hact] at hbusy
  | finished => exact absurd rfl (hlive none)
  | stuck f => exact absurd rfl (hlive (some f))
  | @passed p due _ hdue =>
    rw [hdue] at hlisted
    subst hlisted
    have hne := id_ne_of_listed hnodup
    have hrow := hframe.kept p.id hne
    obtain ⟨r, hr⟩ := Option.ne_none_iff_exists'.mp (hrows p (by simp))
    have hclaimed := hpassed p due r hdue rfl (hrow.trans hr)
    have hlisted' : before ++ p :: due = (before ++ [p]) ++ due := by simp
    refine .between rfl hlisted' (Frame.done ?_ ?_)
    · exact ⟨hframe.treated, fun id hid => hframe.kept id fun q hq => hid q (by simp [hq])⟩
    · exact .passed hr hclaimed (hrow.trans hr)
  | @claimed p due r cutoff claimedAt _ hdue hclaims hadmits hcutoff hr hclaim =>
    rw [hdue] at hlisted
    subst hlisted
    have hne := id_ne_of_listed hnodup
    have hrow := hframe.kept p.id hne
    have hothers := hothers p.id fun id hid => by
      rw [hclaims] at hid
      exact (Option.some.inj hid).symm
    refine Course.within ?_ rfl ?_
    · refine .held (Activity.pending?_toNext _ _ _) (Activity.holding?_toNext _ _ _) ?_
        ⟨hadmits.isOpen, hadmits.isWord⟩
      have hlike : r.Resembles (r.claimed claimedAt) := rfl
      refine .intro (hrow.symm.trans hr) ?_ hlike
      rw [Store.find?_modify_self (Row.keepsId_claimed claimedAt), hr]
      rfl
    · have hframe' : Frame s.policy st₀ d.store before (before ++ [p]) :=
        ⟨hframe.treated, fun id hid => hframe.kept id fun q hq => hid q (by simp [hq])⟩
      exact hframe'.mono (by simp) hne hothers (List.prefix_refl _)
  | noted hact' | absent hact' | unnoted _ hact' | completed hact' | confirmed hact'
  | released _ hact' | reported hact' | returned hact' =>
    rw [hact] at hact'
    cases hact'

section within
variable {before : List Pending} {p : Pending} (hlisted : listed = before ++ p :: s.due)
  (hframe : Frame s.policy st₀ d.store before (before ++ [p]))
include hlisted hframe

theorem Course.hold (hpending : s.activity.pending? = some p)
    (hholding : s.activity.holding? = some p.id) (hkept : p.Kept st₀ d.store)
    (hadmits : d.store.Admits p.id) :
    Course st₀ listed (s.advance d).1.store (s.advance d).2 := by
  have hstep := advance_step (s := s) hst
  have hadmits' : (s.advance d).1.store.Admits p.id :=
    ⟨hstep.closed_eq.trans hadmits.isOpen, hadmits.isWord⟩
  obtain ⟨hr, hr', hlike⟩ := hkept
  have hreleasing (cause : Failure) (hact : s.activity = .releasing p cause) :=
    advance_releasing hact hadmits hr'
  have hrows := hstep.others_kept hst (k := p.id)
    (fun id hid => by rw [hholding] at hid; exact (Option.some.inj hid).symm)
    (fun id hid => by rw [taking_of_claims? hid] at hpending; cases hpending)
  have hstay (a : Activity) := Course.stay (a := a) hnodup hlisted hframe hrows
    (advance_adds hst).grows
  generalize hs' : (s.advance d).2 = s' at *
  generalize hst' : (s.advance d).1.store = st' at *
  cases hstep with
  | still => exact hstay _ (.held hpending hholding (.intro hr hr' hlike) hadmits')
  | finished | stuck | returned => exact absurd rfl (hlive _)
  | passed hact | claimed _ hact => simp [hact, Activity.pending?] at hpending
  | confirmed hact | reported hact => simp [hact, Activity.holding?] at hholding
  | @noted _ recipient _ _ delivered _ hact hr'' =>
    obtain rfl : _ = p := by simpa [hact, Activity.pending?] using hpending
    cases hr'.symm.trans hr''
    refine hstay _ (.held (Activity.pending?_toNext _ _ _) (Activity.holding?_toNext _ _ _) ?_ hadmits')
    refine .intro hr ?_ (hlike.trans (Row.resembles_noted _ delivered recipient))
    rw [Store.find?_modify_self (Row.keepsId_noted _ _), hr']
    rfl
  | absent hact hgone =>
    obtain rfl : _ = p := by simpa [hact, Activity.pending?] using hpending
    rw [hr'] at hgone
    cases hgone
  | unnoted f hact =>
    obtain rfl : _ = p := by simpa [hact, Activity.pending?] using hpending
    exact hstay _ (.held rfl rfl (.intro hr hr' hlike) hadmits')
  | completed hact =>
    obtain rfl : _ = p := by simpa [hact, Activity.pending?] using hpending
    refine hstay _ (.confirming (Store.find?_eq_none_iff.mpr fun r hr => ?_))
    simpa using (List.mem_filter.mp hr).2
  | @released _ cause attempts hact =>
    obtain rfl : _ = p := by simpa [hact, Activity.pending?] using hpending
    have hreleased := hreleasing cause hact
    rw [hreleased] at hs'
    cases hs'
    refine hstay _ (.reporting (.intro hr ?_ hlike (by rw [hlike])))
    rw [Store.find?_modify_self (Row.keepsId_failed _), hr']
    rfl

theorem Course.confirm {receipts : List String} (hact : s.activity = .confirming p receipts)
    (hgone : d.store.find? p.id = none) :
    Course st₀ listed (s.advance d).1.store (s.advance d).2 := by
  rcases advance_confirming (d := d) hact with ⟨hrecorded, hs'⟩ | ⟨f, -, he⟩
  · have hrows (id : Int) : (s.advance d).1.store.find? id = d.store.find? id := by
      rw [Store.find?, Store.find?, hrecorded.sameRows.rows]
    rw [hs']
    refine Course.finish hnodup hlisted hframe (fun id _ => hrows id) (advance_adds hst).grows ?_
      rfl rfl rfl
    exact .delivered ((hrows p.id).trans hgone) hrecorded.mem
  · rw [he] at hlive
    exact absurd rfl (hlive (some f))

theorem Course.report {attempts : Int} {cause : Failure}
    (hact : s.activity = .reporting p attempts cause)
    (hreleased : p.Released attempts cause st₀ d.store) :
    Course st₀ listed (s.advance d).1.store (s.advance d).2 := by
  rcases advance_reporting (d := d) hact with ⟨hrecorded, hs'⟩ | ⟨f, -, he⟩
  · have hrows (id : Int) : (s.advance d).1.store.find? id = d.store.find? id := by
      rw [Store.find?, Store.find?, hrecorded.sameRows.rows]
    have hreleased' := hreleased.of_find?_eq (hrows p.id)
    rw [hs']
    split
    · exact Course.stay hnodup hlisted hframe (fun id _ => hrows id) (advance_adds hst).grows
        (.alerting hreleased' hrecorded.mem ‹_›)
    · exact Course.finish hnodup hlisted hframe (fun id _ => hrows id) (advance_adds hst).grows
        (.failed hreleased' hrecorded.mem) rfl rfl rfl
  · rw [he] at hlive
    exact absurd rfl (hlive (some f))

end within

include hrows in
theorem Course.advance (h : Course st₀ listed d.store s) :
    Course st₀ listed (s.advance d).1.store (s.advance d).2 := by
  cases h with
  | between hact hlisted hframe => exact Course.take hst hnodup hrows hlive hact hlisted hframe
  | within hstage hlisted hframe =>
    generalize ha : s.activity = a at hstage
    cases hstage with
    | held hpending hholding hkept hadmits =>
      exact Course.hold hst hnodup hlive hlisted hframe (ha ▸ hpending) (ha ▸ hholding) hkept hadmits
    | confirming hgone => exact Course.confirm hst hnodup hlive hlisted hframe ha hgone
    | reporting hreleased => exact Course.report hst hnodup hlive hlisted hframe ha hreleased
    | alerting hreleased hrecords halerts =>
      have hwaits : s.advance d = (d, s) := by rw [Sweep.advance, ha]
      rw [hwaits]
      exact .within (ha ▸ .alerting hreleased hrecords halerts) hlisted hframe

end course

/-- An answer is to the call for the message that the sweep is at work on. -/
theorem Course.answered_sending {p : Pending} {recipient : String} {rest receipts : List String}
    (hact : s.activity = .sending p recipient rest receipts) (h : Course st₀ listed d.store s)
    {a : Activity} (hpending : a.pending? = some p) (hholding : a.holding? = some p.id) :
    Course st₀ listed d.store (s.turnTo a) := by
  cases h with
  | between hact' =>
    rw [hact] at hact'
    cases hact'
  | within hstage hlisted hframe =>
    rw [hact] at hstage
    cases hstage with
    | held hpending' _ hkept hadmits =>
      cases hpending'
      exact .within (.held hpending hholding hkept hadmits) hlisted hframe

theorem Course.answered_alerting (hnodup : (listed.map (·.id)).Nodup) {p : Pending} {attempts : Int}
    {cause : Failure} (hact : s.activity = .alerting p attempts cause)
    (h : Course st₀ listed d.store s) : Course st₀ listed d.store (s.turnTo .taking) := by
  cases h with
  | between hact' =>
    rw [hact] at hact'
    cases hact'
  | within hstage hlisted hframe =>
    rw [hact] at hstage
    cases hstage with
    | held _ hholding => cases hholding
    | alerting hreleased hrecords =>
      exact Course.finish hnodup hlisted hframe (fun _ _ => rfl) (List.prefix_refl _)
        (.failed hreleased hrecords) rfl rfl rfl

theorem Course.answered (hnodup : (listed.map (·.id)).Nodup) (answer : Except Failure String)
    (h : Course st₀ listed d.store s) (hlive : ∀ f, (s.answered answer d).2.activity ≠ .ended f) :
    Course st₀ listed d.store (s.answered answer d).2 := by
  cases hact : s.activity with
  | sending p recipient rest receipts =>
    cases answer with
    | ok receipt =>
      rw [answered_ok hact]
      exact h.answered_sending hact rfl rfl
    | error f =>
      rw [answered_error hact]
      dsimp only
      split
      · exact h.answered_sending hact rfl rfl
      · exact h.answered_sending hact rfl rfl
  | alerting p attempts cause =>
    cases answer with
    | ok receipt =>
      have hnext : s.answered (.ok receipt) d = (d, s.turnTo .taking) := by
        simp [Sweep.answered, hact]
      rw [hnext]
      exact h.answered_alerting hnodup hact
    | error f =>
      cases hf : f.isCancellation with
      | true =>
        have hnext : s.answered (.error f) d = (d, s.stopWith f) := by
          simp [Sweep.answered, hact, hf]
        rw [hnext] at hlive
        exact absurd rfl (hlive (some f))
      | false =>
        have hnext : (s.answered (.error f) d).2 = s.turnTo .taking := by
          simp [Sweep.answered, hact, hf]
        rw [hnext]
        exact h.answered_alerting hnodup hact
  | _ =>
    have hnext : s.answered answer d = (d, s) := by simp [Sweep.answered, hact]
    rw [hnext]
    exact h

end Sweep

end Courier.Outbox
