import Courier.Outbox.Sweep
import Courier.Proofs.Outbox.Operations

/-!
# The steps of a sweep

`Sweep.Step` says once what a sweep can do to the store with its next operation, and what it does
afterwards. Whatever holds along runs is proved from its cases; `Sweep.advance` is not opened again.
-/

namespace Courier.Outbox

/-- Only the audit log differs. -/
structure Store.SameRows (st st' : Store) : Prop where
  rows : st'.rows = st.rows
  lastId : st'.lastId = st.lastId
  closed : st'.closed = st.closed

/-! ## What a sweep is about -/

namespace Activity

/-- The message that the next operation deletes, releases or hands back. -/
def givesUp? : Activity → Option Int
  | completing p _ | releasing p _ | returning p _ => some p.id
  | _ => none

def completes? : Activity → Option Int
  | completing p _ => some p.id
  | _ => none

def releases? : Activity → Option Int
  | releasing p _ => some p.id
  | _ => none

def notes? : Activity → Option (Int × String)
  | noting p recipient _ _ => some (p.id, recipient)
  | _ => none

/-- The message that the sweep is at work on: it was claimed and not yet given up. -/
def holding? : Activity → Option Int
  | sending p _ _ _ | noting p _ _ _ | completing p _ | releasing p _ | returning p _ => some p.id
  | _ => none

theorem holding?_toNext (p : Pending) (receipts rest : List String) :
    (toNext p receipts rest).holding? = some p.id := by
  cases rest <;> rfl

theorem holding?_of_givesUp? {a : Activity} {id : Int} (h : a.givesUp? = some id) :
    a.holding? = some id := by
  cases a <;> simp_all [givesUp?, holding?]

end Activity

namespace Sweep

/-- The message that the next operation claims, if that succeeds. -/
def claims? (s : Sweep) (d : Desk) : Option Int :=
  match s.activity, s.due with
  | .taking, p :: _ =>
    match Store.claim p.id d.moment s.policy.lease d.store with
    | .ok (true, _) => some p.id
    | _ => none
  | _, _ => none

theorem taking_of_claims? {s : Sweep} {d : Desk} {id : Int} (h : s.claims? d = some id) :
    s.activity = .taking := by
  unfold claims? at h
  split at h
  · assumption
  · cases h

theorem claims?_of_not_taking {s : Sweep} (h : s.activity ≠ .taking) (d : Desk) :
    s.claims? d = none :=
  Option.eq_none_iff_forall_ne_some.mpr fun _ hclaims => h (taking_of_claims? hclaims)

/-! ## Steps -/

inductive Step (s : Sweep) (d : Desk) : Sweep → Store → Prop where
  | still (h : s.isBusy = false) : Step s d s d.store
  | finished (hact : s.activity = .taking) (hdue : s.due = []) :
    Step s d (s.turnTo (.ended none)) d.store
  | passed {p : Pending} {due : List Pending} (hact : s.activity = .taking)
    (hdue : s.due = p :: due) (hclaims : s.claims? d = none) :
    Step s d { s with due, activity := .taking } d.store
  | claimed {p : Pending} {due : List Pending} {r : Row} {cutoff : String}
    (claimedAt : String) (hact : s.activity = .taking) (hdue : s.due = p :: due)
    (hclaims : s.claims? d = some p.id) (hadmits : d.store.Admits p.id)
    (hcutoff : staleCutoff d.moment s.policy.lease = .ok cutoff)
    (hr : d.store.find? p.id = some r) (hclaim : Store.isClaimable cutoff r = true) :
    Step s d { s with due, activity := .toNext p [] p.remaining }
      (d.store.modify p.id (Row.claimed claimedAt))
  /-- An operation failed. One that gives up a message fails only if the store does not admit it. -/
  | stuck {due : List Pending} (f : Failure) (hbusy : s.isBusy = true) (hdue : due <:+ s.due)
    (hclaims : s.claims? d = none) (hfail : ∀ id, s.activity.givesUp? = some id → ¬ d.store.Admits id)
    (hact : ∀ p recipient rest receipts,
      s.activity ≠ .noting p recipient rest receipts) :
    Step s d ({ s with due }.stopWith f) d.store
  | noted {p : Pending} {recipient : String} {rest receipts delivered : List String} {r : Row}
    (hact : s.activity = .noting p recipient rest receipts) (hr : d.store.find? p.id = some r)
    (hd : r.Notes delivered) :
    Step s d (s.turnTo (.toNext p receipts rest)) (d.store.modify p.id (Row.noted delivered recipient))
  | absent {p : Pending} {recipient : String} {rest receipts : List String}
    (hact : s.activity = .noting p recipient rest receipts) (hr : d.store.find? p.id = none) :
    Step s d (s.turnTo (.toNext p receipts rest)) d.store
  | unnoted {p : Pending} {recipient : String} {rest receipts : List String} (f : Failure)
    (hact : s.activity = .noting p recipient rest receipts)
    (hfail : d.store.Admits p.id → ∃ r, d.store.find? p.id = some r ∧ ∀ delivered, ¬ r.Notes delivered) :
    Step s d (s.turnTo (.releasing p f)) d.store
  | completed {p : Pending} {receipts : List String} (hact : s.activity = .completing p receipts) :
    Step s d (s.turnTo (.confirming p receipts)) (d.store.remove fun r => r.id == p.id)
  | confirmed {p : Pending} {receipts : List String} {st' : Store}
    (hact : s.activity = .confirming p receipts) (hsame : d.store.SameRows st') :
    Step s d { s with delivered := s.delivered + 1, activity := .taking } st'
  | released {p : Pending} {cause : Failure} (attempts : Int)
    (hact : s.activity = .releasing p cause) :
    Step s d (s.turnTo (.reporting p attempts cause))
      (d.store.modify p.id (Row.failed cause.message))
  | reported {p : Pending} {attempts : Int} {cause : Failure} {next : Activity} {st' : Store}
    (hact : s.activity = .reporting p attempts cause) (hsame : d.store.SameRows st')
    (hnext : next = .alerting p attempts cause ∨ next = .taking) :
    Step s d (s.turnTo next) st'
  | returned {p : Pending} {cause : Failure} (hact : s.activity = .returning p cause) :
    Step s d (s.stopWith cause) (d.store.modify p.id Row.freed)

theorem perform_cases {α : Type} (operation : Operation α) (s : Sweep) (d : Desk)
    (next : α → Desk → Desk × Sweep) :
    (∃ a st, operation d.store = .ok (a, st) ∧
        s.perform operation d next = next a { d with store := st }) ∨
      ∃ f, operation d.store = .error f ∧ s.perform operation d next = (d, s.stopWith f) := by
  unfold perform Desk.perform
  split
  · rename_i f h
    split at h
    · cases h
    · rename_i f' hf
      cases h
      exact Or.inr ⟨f, hf, rfl⟩
  · rename_i a d' h
    split at h
    · rename_i a' st hok
      cases h
      exact Or.inl ⟨a, st, hok, rfl⟩
    · cases h

variable {s : Sweep} {d : Desk}

theorem take_step (hst : d.store.WellNumbered) (hact : s.activity = .taking) :
    Step s d (s.take d).2 (s.take d).1.store := by
  unfold take
  split
  · rename_i hdue
    exact .finished hact hdue
  · rename_i p due hdue
    rcases perform_cases (Store.claim p.id d.moment s.policy.lease) { s with due } d
      (fun claimed d =>
        (d, { s with due, activity := if claimed then .toNext p [] p.remaining else .taking }))
      with ⟨b, st, hok, he⟩ | ⟨f, hf, he⟩
    · rw [he]
      have hclaims : s.claims? d = if b then some p.id else none := by
        cases b <;> simp [claims?, hact, hdue, hok]
      obtain ⟨hadmits, claimedAt, cutoff, hcutoff, h⟩ := Store.claim_ok hst hok
      rcases h with ⟨rfl, ⟨r, hr, hclaim⟩, rfl⟩ | ⟨rfl, -, rfl⟩
      · exact .claimed claimedAt hact hdue hclaims hadmits hcutoff hr hclaim
      · exact .passed hact hdue hclaims
    · rw [he]
      exact .stuck f (by simp [isBusy, hact]) ⟨[p], by simp [hdue]⟩ (by simp [claims?, hact, hdue, hf])
        (by simp [Activity.givesUp?, hact]) (by simp [hact])

theorem note_step (hst : d.store.WellNumbered) {p : Pending} {recipient : String}
    {rest receipts : List String} (hact : s.activity = .noting p recipient rest receipts) :
    Step s d (s.note p recipient rest receipts d).2
      (s.note p recipient rest receipts d).1.store := by
  unfold note Desk.perform
  cases hmark : Store.mark p.id (.text recipient) d.store with
  | error f => exact .unnoted f hact (Store.mark_error hst hmark)
  | ok result =>
    obtain ⟨⟨⟩, st⟩ := result
    rcases Store.mark_ok hst hmark with ⟨hr, rfl⟩ | ⟨r, delivered, hr, hd, rfl⟩
    · exact .absent hact hr
    · exact .noted hact hr hd

/-- An operation that gives up a message fails only if the store does not admit it. -/
theorem perform_step {α : Type} {operation : Operation α} {next : α → Desk → Desk × Sweep}
    {id : Int} {a : α} {st : Store} (hgives : s.activity.givesUp? = some id)
    (hadmits : ∀ result, operation d.store = .ok result → d.store.Admits id)
    (hok : d.store.Admits id → operation d.store = .ok (a, st))
    (hnext : Step s d (next a { d with store := st }).2 (next a { d with store := st }).1.store) :
    Step s d (s.perform operation d next).2 (s.perform operation d next).1.store := by
  rcases perform_cases operation s d next with ⟨a', st', hresult, he⟩ | ⟨f, hf, he⟩
  · have hresult' := hok (hadmits _ hresult)
    rw [hresult] at hresult'
    cases hresult'
    rw [he]
    exact hnext
  · rw [he]
    have hclaims : s.claims? d = none :=
      claims?_of_not_taking (fun hact => by simp [Activity.givesUp?, hact] at hgives) d
    have hbusy : s.isBusy = true := by
      cases hact : s.activity <;> simp_all [Activity.givesUp?, isBusy]
    refine .stuck f hbusy (List.suffix_refl _) hclaims (fun k hk hadmits' => ?_)
      fun p recipient rest receipts hact => by simp [Activity.givesUp?, hact] at hgives
    rw [hgives] at hk
    cases hk
    rw [hok hadmits'] at hf
    cases hf

theorem complete_step {p : Pending} {receipts : List String}
    (hact : s.activity = .completing p receipts) :
    Step s d (s.complete p receipts d).2 (s.complete p receipts d).1.store :=
  perform_step (by rw [hact]; rfl) (fun _ => Store.admits_of_checks) Store.complete_of_admits
    (.completed hact)

theorem release_step {p : Pending} {cause : Failure} (hact : s.activity = .releasing p cause) :
    Step s d (s.release p cause d).2 (s.release p cause d).1.store :=
  perform_step (by rw [hact]; rfl) (fun _ => Store.admits_of_checks)
    (fun hadmits => Store.release_of_admits hadmits cause.message) (.released _ hact)

theorem handBack_step {p : Pending} {cause : Failure} (hact : s.activity = .returning p cause) :
    Step s d (s.handBack p cause d).2 (s.handBack p cause d).1.store :=
  perform_step (by rw [hact]; rfl) (fun _ => Store.admits_of_checks) Store.unclaim_of_admits
    (.returned hact)

theorem sameRows_of_record {st st' : Store} {now : Calendar.Instant} {entry : Entry} {u : Unit}
    (h : Store.record now entry st = .ok (u, st')) : st.SameRows st' := by
  obtain ⟨hrows, hlast, hclosed⟩ := Store.record_ok h
  exact ⟨hrows, hlast, hclosed⟩

theorem confirm_step {p : Pending} {receipts : List String}
    (hact : s.activity = .confirming p receipts) :
    Step s d (s.confirm p receipts d).2 (s.confirm p receipts d).1.store := by
  unfold confirm
  rcases perform_cases (Store.record d.now (sentEntry p receipts)) s d (fun () d =>
    (d.log (sentRecord p receipts.length), { s with delivered := s.delivered + 1, activity := .taking }))
    with ⟨u, st, hok, he⟩ | ⟨f, -, he⟩
  · rw [he]
    exact .confirmed hact (sameRows_of_record hok)
  · rw [he]
    exact .stuck f (by simp [isBusy, hact]) (List.suffix_refl _) (by simp [claims?, hact])
      (by simp [Activity.givesUp?, hact]) (by simp [hact])

theorem report_step {p : Pending} {attempts : Int} {cause : Failure}
    (hact : s.activity = .reporting p attempts cause) :
    Step s d (s.report p attempts cause d).2 (s.report p attempts cause d).1.store := by
  unfold report
  rcases perform_cases (Store.record d.now
    (errorEntry p (severity (s.policy.retryLimit ≤ attempts)) attempts cause)) s d (fun () d =>
      (d.log (failedRecord p (severity (s.policy.retryLimit ≤ attempts)) cause),
        s.turnTo
          (if s.policy.retryLimit ≤ attempts ∧ s.policy.operatorChat.isSome then
            .alerting p attempts cause
          else .taking)))
    with ⟨u, st, hok, he⟩ | ⟨f, -, he⟩
  · dsimp only
    rw [he]
    refine .reported hact (sameRows_of_record hok) ?_
    split
    · exact Or.inl rfl
    · exact Or.inr rfl
  · dsimp only
    rw [he]
    exact .stuck f (by simp [isBusy, hact]) (List.suffix_refl _) (by simp [claims?, hact])
      (by simp [Activity.givesUp?, hact]) (by simp [hact])

theorem advance_step (hst : d.store.WellNumbered) :
    Step s d (s.advance d).2 (s.advance d).1.store := by
  cases hact : s.activity with
  | taking => simpa only [advance, hact] using take_step hst hact
  | noting => simpa only [advance, hact] using note_step hst hact
  | completing => simpa only [advance, hact] using complete_step hact
  | confirming => simpa only [advance, hact] using confirm_step hact
  | releasing => simpa only [advance, hact] using release_step hact
  | reporting => simpa only [advance, hact] using report_step hact
  | returning => simpa only [advance, hact] using handBack_step hact
  | sending | alerting | ended =>
    simpa only [advance, hact] using Step.still (by simp [isBusy, hact])

/-! ## Steps of a sweep that holds a message

The store admits the message, so the operation does what it is for.
-/

section admitted
variable {s' : Sweep} {st' : Store} (h : Step s d s' st')
include h

theorem Step.of_noting {p : Pending} {recipient : String} {rest receipts delivered : List String}
    {r : Row} (hact : s.activity = .noting p recipient rest receipts)
    (hadmits : d.store.Admits p.id) (hr : d.store.find? p.id = some r) (hd : r.Notes delivered) :
    s' = s.turnTo (.toNext p receipts rest) ∧
      st' = d.store.modify p.id (Row.noted delivered recipient) := by
  cases h with
  | noted hact' hr' hd' =>
    rw [hact] at hact'
    cases hact'
    rw [hr] at hr'
    cases hr'
    have hdd := hd.symm.trans hd'
    cases hdd
    exact ⟨rfl, rfl⟩
  | absent hact' hr' =>
    rw [hact] at hact'
    cases hact'
    rw [hr] at hr'
    cases hr'
  | unnoted f hact' hfail =>
    rw [hact] at hact'
    cases hact'
    obtain ⟨r', hr', hnone⟩ := hfail hadmits
    rw [hr] at hr'
    cases hr'
    exact absurd hd (hnone delivered)
  | still hbusy => simp [isBusy, hact] at hbusy
  | stuck _ _ _ _ _ hnoting => exact (hnoting _ _ _ _ hact).elim
  | finished hact' | passed hact' | claimed _ hact' | completed hact' | confirmed hact'
  | released _ hact' | reported hact' | returned hact' =>
    rw [hact] at hact'
    cases hact'

theorem Step.of_givesUp {id : Int} (hgives : s.activity.givesUp? = some id)
    (hadmits : d.store.Admits id) :
    (∃ p receipts, s.activity = .completing p receipts ∧ p.id = id ∧
        s' = s.turnTo (.confirming p receipts) ∧ st' = d.store.remove fun r => r.id == id) ∨
      (∃ p cause attempts, s.activity = .releasing p cause ∧ p.id = id ∧
        s' = s.turnTo (.reporting p attempts cause) ∧
        st' = d.store.modify id (Row.failed cause.message)) ∨
      ∃ p cause, s.activity = .returning p cause ∧ p.id = id ∧ s' = s.stopWith cause ∧
        st' = d.store.modify id Row.freed := by
  cases h with
  | @completed p receipts hact =>
    obtain rfl : p.id = id := by simpa [hact, Activity.givesUp?] using hgives
    exact Or.inl ⟨p, receipts, hact, rfl, rfl, rfl⟩
  | @released p cause attempts hact =>
    obtain rfl : p.id = id := by simpa [hact, Activity.givesUp?] using hgives
    exact Or.inr (Or.inl ⟨p, cause, attempts, hact, rfl, rfl, rfl⟩)
  | @returned p cause hact =>
    obtain rfl : p.id = id := by simpa [hact, Activity.givesUp?] using hgives
    exact Or.inr (Or.inr ⟨p, cause, hact, rfl, rfl, rfl⟩)
  | still hbusy =>
    cases hact : s.activity <;> simp [hact, Activity.givesUp?, isBusy] at hgives hbusy
  | stuck _ _ _ _ hfail => exact absurd hadmits (hfail id hgives)
  | finished hact | passed hact | claimed _ hact | noted hact | absent hact | unnoted _ hact
  | confirmed hact | reported hact => simp [hact, Activity.givesUp?] at hgives

theorem Step.of_not_busy (hbusy : s.isBusy = false) : s' = s ∧ st' = d.store := by
  cases h with
  | still => exact ⟨rfl, rfl⟩
  | stuck _ hbusy' =>
    rw [hbusy] at hbusy'
    cases hbusy'
  | finished hact | passed hact | claimed _ hact | noted hact | absent hact | unnoted _ hact
  | completed hact | confirmed hact | released _ hact | reported hact | returned hact =>
    simp [isBusy, hact] at hbusy

end admitted

/-! ## What a step keeps -/

variable {s' : Sweep} {st' : Store}

theorem Step.wellNumbered (h : Step s d s' st') (hst : d.store.WellNumbered) :
    st'.WellNumbered := by
  cases h with
  | still | finished | passed | stuck | absent | unnoted => exact hst
  | claimed claimedAt => exact Store.wellNumbered_modify hst (Row.keepsId_claimed claimedAt) _
  | noted => exact Store.wellNumbered_modify hst (Row.keepsId_noted _ _) _
  | released => exact Store.wellNumbered_modify hst (Row.keepsId_failed _) _
  | returned => exact Store.wellNumbered_modify hst Row.keepsId_freed _
  | completed => exact Store.wellNumbered_remove hst _
  | confirmed _ hsame | reported _ hsame _ =>
    exact ⟨hsame.rows ▸ hst.nodup, fun r hr => hsame.lastId ▸ hst.le_lastId r (hsame.rows ▸ hr)⟩

theorem Step.lastId_eq (h : Step s d s' st') : st'.lastId = d.store.lastId := by
  cases h with
  | confirmed _ hsame | reported _ hsame _ => exact hsame.lastId
  | _ => rfl

theorem Step.closed_eq (h : Step s d s' st') : st'.closed = d.store.closed := by
  cases h with
  | confirmed _ hsame | reported _ hsame _ => exact hsame.closed
  | _ => rfl

theorem Step.policy_eq (h : Step s d s' st') : s'.policy = s.policy := by
  cases h <;> rfl

theorem Step.due_suffix (h : Step s d s' st') : s'.due <:+ s.due := by
  cases h with
  | passed _ hdue | claimed _ _ hdue => exact ⟨[_], hdue.symm⟩
  | stuck _ _ hdue => exact hdue
  | _ => exact List.suffix_refl _

/-- What a step does to the row of a number. -/
inductive Touch (s : Sweep) (d : Desk) (id : Int) : Option Row → Option Row → Prop where
  | kept (o : Option Row) : Touch s d id o o
  | claimed {r : Row} {cutoff : String} (claimedAt : String) (hclaims : s.claims? d = some id)
    (hcutoff : staleCutoff d.moment s.policy.lease = .ok cutoff)
    (hclaim : Store.isClaimable cutoff r = true) :
    Touch s d id (some r) (some (r.claimed claimedAt))
  | noted {p : Pending} {recipient : String} {rest receipts delivered : List String} {r : Row}
    (hact : s.activity = .noting p recipient rest receipts) (hid : p.id = id)
    (hd : r.Notes delivered) : Touch s d id (some r) (some (r.noted delivered recipient))
  | completed {p : Pending} {receipts : List String} (o : Option Row)
    (hact : s.activity = .completing p receipts) (hid : p.id = id) : Touch s d id o none
  | released {p : Pending} {cause : Failure} (o : Option Row)
    (hact : s.activity = .releasing p cause) (hid : p.id = id) :
    Touch s d id o (o.map (Row.failed cause.message))
  | returned {p : Pending} {cause : Failure} (o : Option Row)
    (hact : s.activity = .returning p cause) (hid : p.id = id) :
    Touch s d id o (o.map Row.freed)

theorem Step.touch (h : Step s d s' st') (hst : d.store.WellNumbered) (id : Int) :
    Touch s d id (d.store.find? id) (st'.find? id) := by
  cases h with
  | still | finished | passed | stuck | absent | unnoted => exact .kept _
  | confirmed _ hsame | reported _ hsame _ =>
    rw [Store.find?, Store.find?, hsame.rows]
    exact .kept _
  | @claimed p due r cutoff claimedAt _ _ hclaims _ hcutoff hr hclaim =>
    rw [Store.find?_modify (Row.keepsId_claimed claimedAt)]
    split
    · rename_i hid
      rw [hid, hr]
      exact .claimed claimedAt hclaims hcutoff hclaim
    · exact .kept _
  | @noted p recipient rest receipts delivered r hact hr hd =>
    rw [Store.find?_modify (Row.keepsId_noted _ _)]
    split
    · rename_i hid
      rw [hid, hr]
      exact .noted hact rfl hd
    · exact .kept _
  | @completed p receipts hact =>
    rw [Store.find?_remove hst]
    cases hr : d.store.find? id with
    | none => exact .kept _
    | some r =>
      by_cases hid : p.id = id
      · rw [Option.filter_some_neg (by simp [Store.id_of_find? hr, hid])]
        exact .completed _ hact hid
      · rw [Option.filter_some_pos (by simp [Store.id_of_find? hr, Ne.symm hid])]
        exact .kept _
  | @released p cause attempts hact =>
    rw [Store.find?_modify (Row.keepsId_failed _)]
    split
    · rename_i hid
      exact .released _ hact hid.symm
    · exact .kept _
  | @returned p cause hact =>
    rw [Store.find?_modify Row.keepsId_freed]
    split
    · rename_i hid
      exact .returned _ hact hid.symm
    · exact .kept _

/-- Only a sweep that holds a row, or claims it, changes it. -/
theorem Touch.eq_of_not_holding {id : Int} {o o' : Option Row} (h : Touch s d id o o')
    (hholding : s.activity.holding? ≠ some id) (hclaims : s.claims? d ≠ some id) : o' = o := by
  cases h with
  | kept => rfl
  | claimed _ hc => exact absurd hc hclaims
  | noted hact hid _ | completed _ hact hid | released _ hact hid | returned _ hact hid =>
    exact absurd (by simp [Activity.holding?, hact, hid]) hholding

/-- A sweep holds a message that it has just claimed, or that it held before and does not give up. -/
theorem Step.holding (h : Step s d s' st') {id : Int} (hs' : s'.activity.holding? = some id) :
    s.claims? d = some id ∨ (s.activity.holding? = some id ∧ s.activity.givesUp? ≠ some id) := by
  cases h with
  | still hbusy =>
    refine Or.inr ⟨hs', fun hgives => ?_⟩
    cases hact : s.activity <;> simp_all [isBusy, Activity.givesUp?]
  | claimed _ _ _ hclaims =>
    rw [Activity.holding?_toNext] at hs'
    exact Or.inl (hclaims.trans hs')
  | noted hact | absent hact =>
    rw [turnTo, Activity.holding?_toNext] at hs'
    exact Or.inr ⟨by rw [hact]; exact hs', by simp [Activity.givesUp?, hact]⟩
  | unnoted _ hact =>
    exact Or.inr ⟨by rw [hact]; exact hs', by simp [Activity.givesUp?, hact]⟩
  | finished | passed | stuck | completed | confirmed | released | returned => cases hs'
  | reported _ _ hnext => rcases hnext with rfl | rfl <;> cases hs'

/-- A claim that succeeds finds the row claimable and starts work on the message. -/
theorem Step.of_claims (h : Step s d s' st') {id : Int} (hclaims : s.claims? d = some id) :
    ∃ p due r cutoff claimedAt, s.activity = .taking ∧ s.due = p :: due ∧ p.id = id ∧
      d.store.Admits id ∧ staleCutoff d.moment s.policy.lease = .ok cutoff ∧
      d.store.find? id = some r ∧ Store.isClaimable cutoff r = true ∧
      s' = { s with due, activity := .toNext p [] p.remaining } ∧
      st' = d.store.modify id (Row.claimed claimedAt) := by
  have htaking := taking_of_claims? hclaims
  cases h with
  | @claimed p due r cutoff claimedAt hact hdue hclaims' hadmits hcutoff hr hclaim =>
    obtain rfl : p.id = id := by simpa [hclaims'] using hclaims
    exact ⟨p, due, r, cutoff, claimedAt, hact, hdue, rfl, hadmits, hcutoff, hr, hclaim, rfl, rfl⟩
  | passed _ _ hclaims' | stuck _ _ _ hclaims' =>
    rw [hclaims'] at hclaims
    cases hclaims
  | finished _ hdue => simp [claims?, htaking, hdue] at hclaims
  | still hbusy => simp [isBusy, htaking] at hbusy
  | noted hact | absent hact | unnoted _ hact | completed hact | confirmed hact | released _ hact
  | reported hact | returned hact =>
    rw [htaking] at hact
    cases hact

/-! ## Answers -/

/-- An answer changes only what the sweep does next. -/
theorem answered_eq_turnTo (answer : Except Failure String) (s : Sweep) (d : Desk) :
    (s.answered answer d).1.store = d.store ∧ ∃ a, (s.answered answer d).2 = s.turnTo a := by
  unfold answered
  split
  · exact ⟨rfl, _, rfl⟩
  · exact ⟨rfl, _, rfl⟩
  · exact ⟨rfl, _, rfl⟩
  · split
    · exact ⟨rfl, _, rfl⟩
    · exact ⟨rfl, _, rfl⟩
  · exact ⟨rfl, s.activity, rfl⟩

theorem answered_store (answer : Except Failure String) (s : Sweep) (d : Desk) :
    (s.answered answer d).1.store = d.store :=
  (answered_eq_turnTo answer s d).1

theorem answered_due (answer : Except Failure String) (s : Sweep) (d : Desk) :
    (s.answered answer d).2.due = s.due := by
  obtain ⟨a, h⟩ := (answered_eq_turnTo answer s d).2
  rw [h, turnTo]

theorem answered_policy (answer : Except Failure String) (s : Sweep) (d : Desk) :
    (s.answered answer d).2.policy = s.policy := by
  obtain ⟨a, h⟩ := (answered_eq_turnTo answer s d).2
  rw [h, turnTo]

theorem answered_holding {answer : Except Failure String} {s : Sweep} {d : Desk} {id : Int}
    (h : (s.answered answer d).2.activity.holding? = some id) :
    s.activity.holding? = some id := by
  unfold answered at h
  split at h
  · rename_i hact
    rw [hact]
    exact h
  · rename_i hact
    rw [hact]
    dsimp only [turnTo] at h
    split at h <;> exact h
  · cases h
  · split at h <;> cases h
  · exact h

theorem answered_ok {s : Sweep} {p : Pending} {recipient : String} {rest receipts : List String}
    (hact : s.activity = .sending p recipient rest receipts) (receipt : String) (d : Desk) :
    s.answered (.ok receipt) d = (d, s.turnTo (.noting p recipient rest (receipts ++ [receipt]))) := by
  simp [answered, hact]

theorem answered_error {s : Sweep} {p : Pending} {recipient : String} {rest receipts : List String}
    (hact : s.activity = .sending p recipient rest receipts) (f : Failure) (d : Desk) :
    s.answered (.error f) d =
      (d, s.turnTo (if f.isCancellation then .returning p f else .releasing p f)) := by
  simp [answered, hact]

theorem answered_of_busy {s : Sweep} (h : s.isBusy = true) (answer : Except Failure String)
    (d : Desk) : s.answered answer d = (d, s) := by
  unfold answered
  split
  · rename_i hact
    simp [isBusy, hact] at h
  · rename_i hact
    simp [isBusy, hact] at h
  · rename_i hact
    simp [isBusy, hact] at h
  · rename_i hact
    simp [isBusy, hact] at h
  · rfl

/-! ## Listing -/

theorem list_policy (policy : Policy) (now : Calendar.Moment) (d : Desk) :
    (list policy now d).policy = policy := by
  unfold list
  split <;> rfl

/-- The messages that a sweep takes show rows that may be tried once more. -/
theorem list_due (hst : d.store.WellNumbered) (policy : Policy) (now : Calendar.Moment) :
    ((list policy now d).due.map (·.id)).Nodup ∧
      ∀ p ∈ (list policy now d).due, ∃ r, d.store.find? p.id = some r ∧ r.pending = .ok p ∧
        r.attempts < policy.retryLimit := by
  unfold list
  split
  · exact ⟨List.nodup_nil, fun p hp => absurd hp List.not_mem_nil⟩
  · rename_i due hdue
    exact Store.listDue_ok hst hdue

theorem ended_of_over {s : Sweep} (h : s.outcome?.isSome = true) : ∃ f, s.activity = .ended f := by
  cases hact : s.activity with
  | ended f => exact ⟨f, rfl⟩
  | _ => simp [outcome?, hact] at h

theorem list_holding (policy : Policy) (now : Calendar.Moment) (d : Desk) :
    (list policy now d).activity.holding? = none := by
  unfold list
  split <;> rfl

/-! ## Up to the next call -/

theorem proceed_of_busy {s : Sweep} (h : s.isBusy = true) (d : Desk) :
    s.proceed d = (s.advance d).2.proceed (s.advance d).1 := by
  rw [proceed, dif_pos h]

theorem proceed_of_not_busy {s : Sweep} (h : ¬ s.isBusy = true) (d : Desk) :
    s.proceed d = (d, s) := by
  rw [proceed, dif_neg h]

theorem advance_of_not_busy {s : Sweep} (h : ¬ s.isBusy = true) (d : Desk) : s.advance d = (d, s) := by
  rw [advance]
  cases hact : s.activity <;> simp_all [isBusy]

theorem proceed_advance (s : Sweep) (d : Desk) :
    s.proceed d = (s.advance d).2.proceed (s.advance d).1 := by
  by_cases hbusy : s.isBusy = true
  · exact proceed_of_busy hbusy d
  · rw [advance_of_not_busy hbusy]

end Sweep

end Courier.Outbox
