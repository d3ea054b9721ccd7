import Courier.Proofs.Outbox.Retries
import Mathlib.Data.List.Nodup

/-!
# How sweeps stand to a message

While sweeps with the same policy follow one another, a message is sent again until it was tried too
often. `Standing` says how a sweep stands to the message, and what was counted, recorded and told of
its failures by then; every operation of a sweep and every answer to it keep it.
-/

namespace Courier.Outbox

/-! ## Standings -/

/-- Besides those that were there before, the failures of the message are counted, recorded and told
of; these sweeps failed to deliver it, and those told the operator. -/
structure Settled (policy : Policy) (id : Int) (base : List (Option String)) (st : Store)
    (failed told : List Nat) : Prop where
  nodup : failed.Nodup
  bounded : (failed.length : Int) ≤ policy.retryLimit
  failures : st.failures id = base ++ policy.severities failed.length
  told : told = policy.tellers failed

/-- The message may be tried once more, by a sweep that did not fail to deliver it so far. -/
structure Open (policy : Policy) (id : Int) (base : List (Option String)) (k : Nat) (st : Store)
    (failed told : List Nat) : Prop where
  settled : Settled policy id base st failed told
  lt : (failed.length : Int) < policy.retryLimit
  isWord : Cell.isWord policy.retryLimit = true
  fresh : k ∉ failed

/-- How a sweep, known by its number, stands to a message. -/
inductive Standing (policy : Policy) (id : Int) (base : List (Option String)) (k : Nat) (st : Store)
    (failed told : List Nat) : Option Sweep → Prop where
  | settled {o : Option Sweep} (hpassive : ∀ s, o = some s → s.Passive id)
    (hsettled : Settled policy id base st failed told)
    (hrow : ∀ r, st.find? id = some r → r.Tidy ∧ r.attempts = failed.length) :
    Standing policy id base k st failed told o
  | waiting {s : Sweep} (hpolicy : s.policy = policy) (hlive : ∀ f, s.activity ≠ .ended f)
    (hdue : id ∈ s.due.map (·.id)) (hnodup : (s.due.map (·.id)).Nodup)
    (hfits : ∀ p ∈ s.due, p.id = id → p.Fits) (hholding : s.activity.holding? ≠ some id)
    (hfails : s.activity.fails? ≠ some id) (hcounts : st.Counts id failed.length)
    (hopen : Open policy id base k st failed told) : Standing policy id base k st failed told (some s)
  | working {s : Sweep} {p : Pending} (hpolicy : s.policy = policy)
    (hahead : id ∉ s.due.map (·.id)) (hpending : s.activity.pending? = some p) (hid : p.id = id)
    (hfits : p.Fits) (hholding : s.activity.holding? = some id) (hfails : s.activity.fails? = none)
    (hadmits : st.Admits id) (hcounts : st.Counts id failed.length)
    (hopen : Open policy id base k st failed told) : Standing policy id base k st failed told (some s)
  /-- The failure of the sweep is not counted yet. -/
  | releasing {s : Sweep} {p : Pending} {cause : Failure} {earlier : List Nat}
    (hpolicy : s.policy = policy) (hahead : id ∉ s.due.map (·.id))
    (hact : s.activity = .releasing p cause) (hid : p.id = id) (hfits : p.Fits)
    (hadmits : st.Admits id) (hfailed : failed = earlier ++ [k])
    (hcounts : st.Counts id earlier.length) (hopen : Open policy id base k st earlier told) :
    Standing policy id base k st failed told (some s)
  /-- The failure of the sweep is counted, but not recorded yet. -/
  | reporting {s : Sweep} {p : Pending} {cause : Failure} {earlier : List Nat}
    (hpolicy : s.policy = policy) (hahead : id ∉ s.due.map (·.id))
    (hact : s.activity = .reporting p ((earlier.length : Int) + 1) cause) (hid : p.id = id)
    (hfits : p.Fits) (hadmits : st.Admits id) (hfailed : failed = earlier ++ [k])
    (hcounts : st.Counts id (earlier.length + 1)) (hopen : Open policy id base k st earlier told) :
    Standing policy id base k st failed told (some s)

section standing
variable {policy : Policy} {id : Int} {base : List (Option String)} {k : Nat} {st st' : Store}
  {failed told : List Nat}

section transfer
variable (hrow : st'.find? id = st.find? id) (hfailures : st'.failures id = st.failures id)

include hrow in
theorem Store.Counts.transfer {n : Nat} (h : st.Counts id n) : st'.Counts id n := by
  obtain ⟨r, hr, htidy, hattempts⟩ := h
  exact ⟨r, hrow.trans hr, htidy, hattempts⟩

include hfailures in
theorem Settled.transfer (h : Settled policy id base st failed told) :
    Settled policy id base st' failed told :=
  ⟨h.nodup, h.bounded, hfailures.trans h.failures, h.told⟩

include hfailures in
theorem Open.transfer (h : Open policy id base k st failed told) :
    Open policy id base k st' failed told :=
  ⟨h.settled.transfer hfailures, h.lt, h.isWord, h.fresh⟩

include hrow hfailures in
/-- Nothing happened to the message. -/
theorem Standing.transfer {o : Option Sweep} (h : Standing policy id base k st failed told o)
    (hclosed : st'.closed = st.closed) : Standing policy id base k st' failed told o := by
  have hadmits (h : st.Admits id) : st'.Admits id := ⟨hclosed.trans h.isOpen, h.isWord⟩
  cases h with
  | settled hpassive hsettled hrow' =>
    exact .settled hpassive (hsettled.transfer hfailures) fun r hr => hrow' r (hrow.symm.trans hr)
  | waiting hpolicy hlive hdue hnodup hfits hholding hfails hcounts hopen =>
    exact .waiting hpolicy hlive hdue hnodup hfits hholding hfails (hcounts.transfer hrow)
      (hopen.transfer hfailures)
  | working hpolicy hahead hpending hid hfits hholding hfails hadmits' hcounts hopen =>
    exact .working hpolicy hahead hpending hid hfits hholding hfails (hadmits hadmits')
      (hcounts.transfer hrow) (hopen.transfer hfailures)
  | releasing hpolicy hahead hact hid hfits hadmits' hfailed hcounts hopen =>
    exact .releasing hpolicy hahead hact hid hfits (hadmits hadmits') hfailed
      (hcounts.transfer hrow) (hopen.transfer hfailures)
  | reporting hpolicy hahead hact hid hfits hadmits' hfailed hcounts hopen =>
    exact .reporting hpolicy hahead hact hid hfits (hadmits hadmits') hfailed
      (hcounts.transfer hrow) (hopen.transfer hfailures)

end transfer

theorem Store.Counts.row {n : Nat} (h : st.Counts id n) {r : Row} (hr : st.find? id = some r) :
    r.Tidy ∧ r.attempts = n := by
  obtain ⟨r', hr', htidy, hattempts⟩ := h
  cases hr.symm.trans hr'
  exact ⟨htidy, hattempts⟩

theorem Open.passive (h : Open policy id base k st failed told) (hcounts : st.Counts id failed.length)
    {s : Sweep} (hpassive : s.Passive id) : Standing policy id base k st failed told (some s) :=
  .settled (fun _ hs' => Option.some.inj hs' ▸ hpassive) h.settled fun _ hr => hcounts.row hr

theorem Open.nodup_concat (h : Open policy id base k st failed told) : (failed ++ [k]).Nodup := by
  rw [← List.concat_eq_append]
  exact h.settled.nodup.concat h.fresh

end standing

/-! ## Operations -/

section advance
variable {policy : Policy} {id : Int} {base : List (Option String)} {k : Nat} {failed told : List Nat}
  {s : Sweep} {d : Desk}

/-- The sweep, if its next operation leads to a call that tells the operator of the message. -/
def Sweep.teller (k : Nat) (id : Int) (s : Sweep) (d : Desk) : List Nat :=
  if (s.tell? d).map (·.1) = some id then [k] else []

variable (hst : d.store.WellNumbered)
include hst

theorem Sweep.teller_of_not_reporting
    (h : ∀ p attempts cause, s.activity = .reporting p attempts cause → p.id ≠ id) :
    s.teller k id d = [] := by
  unfold teller
  split
  · rename_i hmap
    obtain ⟨⟨id', payload⟩, htell, rfl⟩ := Option.map_eq_some_iff.mp hmap
    obtain ⟨⟨p, attempts, cause, hact, hid⟩, -⟩ := reporting_of_tell? hst htell
    exact absurd hid (h p attempts cause hact)
  · rfl

theorem Sweep.teller_of_not_fails (hfails : s.activity.fails? ≠ some id) :
    s.teller k id d = [] := by
  apply teller_of_not_reporting hst
  intro p attempts cause hact hid
  rw [hact] at hfails
  exact hfails (congrArg some hid)

theorem Sweep.failures_advance (hfails : s.activity.fails? ≠ some id) :
    (s.advance d).1.store.failures id = d.store.failures id := by
  apply (advance_adds hst).failures_eq
  intro p attempts cause hact hid
  rw [hact] at hfails
  exact hfails (congrArg some hid)

theorem Standing.advance_passive (hpassive : s.Passive id)
    (hsettled : Settled policy id base d.store failed told)
    (hrow : ∀ r, d.store.find? id = some r → r.Tidy ∧ r.attempts = failed.length) :
    Standing policy id base k (s.advance d).1.store failed told (some (s.advance d).2) := by
  obtain ⟨hpassive', hkept⟩ := hpassive.step (Sweep.advance_step hst) hst
  have hfailures := Sweep.failures_advance hst hpassive.not_fails
  refine .settled (fun s' hs' => Option.some.inj hs' ▸ hpassive') (hsettled.transfer hfailures) ?_
  exact fun r hr => hrow r (hkept.symm.trans hr)

theorem Standing.advance_waiting (hpolicy : s.policy = policy)
    (hnodup : (s.due.map (·.id)).Nodup) (hfits : ∀ p ∈ s.due, p.id = id → p.Fits)
    (hholding : s.activity.holding? ≠ some id) (hfails : s.activity.fails? ≠ some id)
    (hcounts : d.store.Counts id failed.length) (hopen : Open policy id base k d.store failed told) :
    Standing policy id base k (s.advance d).1.store failed told (some (s.advance d).2) := by
  have hstep := Sweep.advance_step (s := s) hst
  have hopen' := hopen.transfer (Sweep.failures_advance hst hfails)
  generalize (s.advance d).2 = s' at hstep ⊢
  generalize (s.advance d).1.store = st' at hstep hopen' ⊢
  have hpolicy' := hstep.policy_eq.trans hpolicy
  by_cases hclaims : s.claims? d = some id
  · obtain ⟨p, due, r, _, claimedAt, -, hs, hid, hadmits, -, hr, -, rfl, rfl⟩ := hstep.of_claims hclaims
    rw [hs, List.map_cons, List.nodup_cons, hid] at hnodup
    refine .working hpolicy' hnodup.1 (Activity.pending?_toNext _ _ _) hid
      (hfits p (by simp [hs]) hid) ((Activity.holding?_toNext _ _ _).trans (congrArg some hid))
      (Activity.fails?_toNext _ _ _) ⟨hadmits.isOpen, hadmits.isWord⟩ ?_ hopen'
    obtain ⟨r', hr', htidy, hattempts⟩ := hcounts
    cases hr.symm.trans hr'
    refine ⟨r.claimed claimedAt, ?_, htidy.of_eq rfl rfl, hattempts⟩
    rw [Store.find?_modify_self (Row.keepsId_claimed claimedAt), hr]
    rfl
  · have hcounts' := hcounts.transfer ((hstep.touch hst id).eq_of_not_holding hholding hclaims)
    have hholding' := hstep.not_holding hholding hclaims
    have hfails' := hstep.not_fails hholding hfails
    by_cases hended : ∃ f, s'.activity = .ended f
    · exact hopen'.passive hcounts' (Or.inl hended)
    · by_cases hdue' : id ∈ s'.due.map (·.id)
      · refine .waiting hpolicy' (fun f hf => hended ⟨f, hf⟩) hdue' ?_ ?_ hholding' hfails' hcounts' hopen'
        · exact hnodup.sublist (hstep.due_suffix.sublist.map _)
        · exact fun p hp => hfits p (hstep.due_suffix.subset hp)
      · exact hopen'.passive hcounts' (Or.inr ⟨hdue', hholding', hfails'⟩)

theorem Standing.advance_working (hpolicy : s.policy = policy) (hahead : id ∉ s.due.map (·.id))
    {p : Pending} (hpending : s.activity.pending? = some p) (hid : p.id = id) (hfits : p.Fits)
    (hholding : s.activity.holding? = some id) (hfails : s.activity.fails? = none)
    (hadmits : d.store.Admits id) (hcounts : d.store.Counts id failed.length)
    (hopen : Open policy id base k d.store failed told) :
    Standing policy id base k (s.advance d).1.store failed told (some (s.advance d).2) := by
  have hstep := Sweep.advance_step (s := s) hst
  have hnot : s.activity.fails? ≠ some id := by
    rw [hfails]
    intro h
    cases h
  have hopen' := hopen.transfer (Sweep.failures_advance hst hnot)
  have hadmits' : (s.advance d).1.store.Admits id :=
    ⟨hstep.closed_eq.trans hadmits.isOpen, hadmits.isWord⟩
  generalize (s.advance d).2 = s' at hstep ⊢
  generalize (s.advance d).1.store = st' at hstep hopen' hadmits' ⊢
  subst hid
  obtain ⟨r, hr, htidy, hattempts⟩ := hcounts
  cases hact : s.activity with
  | sending =>
    obtain ⟨rfl, rfl⟩ := hstep.of_not_busy (by rw [Sweep.isBusy, hact])
    exact .working hpolicy hahead hpending rfl hfits hholding hfails hadmits' ⟨r, hr, htidy, hattempts⟩
      hopen'
  | noting q recipient rest receipts =>
    obtain rfl : q = p := by simpa [hact, Activity.pending?] using hpending
    obtain ⟨delivered, hnotes⟩ := htidy.notes
    obtain ⟨rfl, rfl⟩ := hstep.of_noting hact hadmits hr hnotes
    refine .working hpolicy hahead (Activity.pending?_toNext _ _ _) rfl hfits
      (Activity.holding?_toNext _ _ _) (Activity.fails?_toNext _ _ _) hadmits' ?_ hopen'
    refine ⟨r.noted delivered recipient, ?_, htidy.noted hnotes recipient, ?_⟩
    · rw [Store.find?_modify_self (Row.keepsId_noted _ _), hr]
      rfl
    · rw [Row.attempts_noted, hattempts]
  | completing q receipts =>
    have hgives : s.activity.givesUp? = some p.id := by
      rw [hact] at hholding ⊢
      exact hholding
    rcases hstep.of_givesUp hgives hadmits with ⟨_, _, -, -, rfl, rfl⟩ | ⟨_, _, _, hact', -⟩ |
      ⟨_, _, hact', -⟩
    · have hgone : (d.store.remove fun r => r.id == p.id).find? p.id = none :=
        Store.find?_eq_none_iff.mpr fun r hr => by simpa using (List.mem_filter.mp hr).2
      refine .settled (fun s' hs' => Option.some.inj hs' ▸ Or.inr ⟨hahead, ?_, ?_⟩)
        hopen'.settled fun r hr => ?_
      · intro h
        cases h
      · intro h
        cases h
      · cases hgone.symm.trans hr
    · rw [hact] at hact'
      cases hact'
    · rw [hact] at hact'
      cases hact'
  | returning q cause =>
    have hgives : s.activity.givesUp? = some p.id := by
      rw [hact] at hholding ⊢
      exact hholding
    rcases hstep.of_givesUp hgives hadmits with ⟨_, _, hact', -⟩ | ⟨_, _, _, hact', -⟩ |
      ⟨_, _, -, -, rfl, rfl⟩
    · rw [hact] at hact'
      cases hact'
    · rw [hact] at hact'
      cases hact'
    · refine hopen'.passive ⟨r.freed, ?_, htidy.of_eq rfl rfl, hattempts⟩ (Or.inl ⟨_, rfl⟩)
      rw [Store.find?_modify_self Row.keepsId_freed, hr]
      rfl
  | releasing => simp [hact, Activity.fails?] at hfails
  | taking | confirming | reporting | alerting | ended => simp [hact, Activity.holding?] at hholding

omit hst in
theorem Standing.advance_releasing (hpolicy : s.policy = policy) (hahead : id ∉ s.due.map (·.id))
    {p : Pending} {cause : Failure} {earlier : List Nat} (hact : s.activity = .releasing p cause)
    (hid : p.id = id) (hfits : p.Fits) (hadmits : d.store.Admits id)
    (hfailed : failed = earlier ++ [k]) (hcounts : d.store.Counts id earlier.length)
    (hopen : Open policy id base k d.store earlier told) :
    Standing policy id base k (s.advance d).1.store failed told (some (s.advance d).2) := by
  subst hid
  obtain ⟨r, hr, htidy, hattempts⟩ := hcounts
  have hfailures : (d.store.modify p.id (Row.failed cause.message)).failures p.id =
      d.store.failures p.id := Store.failures_of_events_eq rfl
  rw [Sweep.advance_releasing hact hadmits hr, hattempts]
  refine .reporting hpolicy hahead rfl rfl hfits ⟨hadmits.isOpen, hadmits.isWord⟩ hfailed ?_
    (hopen.transfer hfailures)
  refine ⟨r.failed cause.message, ?_, htidy.of_eq rfl rfl, ?_⟩
  · change (d.store.modify p.id (Row.failed cause.message)).find? p.id = _
    rw [Store.find?_modify_self (Row.keepsId_failed _), hr]
    rfl
  · change r.attempts + 1 = _
    rw [hattempts]
    omega

omit hst in
theorem Standing.advance_reporting (hpolicy : s.policy = policy) (hahead : id ∉ s.due.map (·.id))
    {p : Pending} {cause : Failure} {earlier : List Nat}
    (hact : s.activity = .reporting p ((earlier.length : Int) + 1) cause) (hid : p.id = id)
    (hfits : p.Fits) (hadmits : d.store.Admits id) (hfailed : failed = earlier ++ [k])
    (hcounts : d.store.Counts id (earlier.length + 1))
    (hopen : Open policy id base k d.store earlier told) :
    Standing policy id base k (s.advance d).1.store failed (told ++ s.teller k id d)
      (some (s.advance d).2) := by
  subst hid hpolicy hfailed
  obtain ⟨st, hrecord⟩ := Store.record_errorEntry hadmits.isOpen hfits d.now
    (Sweep.severity (s.policy.retryLimit ≤ (earlier.length : Int) + 1)) ((earlier.length : Int) + 1) cause
  rcases Sweep.advance_reporting (d := d) hact with ⟨hrecorded, hs'⟩ | ⟨f, hf, -⟩
  case inr =>
    rw [hrecord] at hf
    cases hf
  -- The event is read back only if the count is short, and it is no longer than the limit.
  have hword : Cell.isWord ((earlier.length : Int) + 1) = true := by
    have hlimit := hopen.isWord
    have hlt := hopen.lt
    simp only [Cell.isWord, Cell.wordBound, Bool.and_eq_true] at hlimit ⊢
    have hhigh := of_decide_eq_true hlimit.2
    exact ⟨decide_eq_true (by omega), decide_eq_true (by omega)⟩
  have hfailures := hrecorded.failures_concat hadmits.isWord hword
  have hrow : (s.advance d).1.store.find? p.id = d.store.find? p.id := by
    rw [Store.find?, Store.find?, hrecorded.sameRows.rows]
  have hteller : s.teller k p.id d = s.policy.tellers (earlier ++ [k]) := by
    have hbusy : s.isBusy = true := by rw [Sweep.isBusy, hact]
    rw [Policy.tellers_concat hopen.lt, Sweep.teller, Sweep.tell?, if_pos hbusy, hs']
    by_cases halerts : Sweep.alerts s.policy ((earlier.length : Int) + 1) = true
    · obtain ⟨chat, hchat⟩ := Option.isSome_iff_exists.mp (Bool.and_eq_true _ _ ▸ halerts).2
      simp [halerts, Sweep.telling?, Sweep.request?, Sweep.turnTo, hchat]
    · simp [halerts, Sweep.telling?, Sweep.turnTo]
  -- With its failure recorded the sweep is done with the message, whether it tells the operator or not.
  refine .settled (fun s' hs => ?_) ?_ fun r hr => ?_
  · obtain rfl : (s.advance d).2 = s' := Option.some.inj hs
    right
    rw [hs']
    refine ⟨hahead, ?_, ?_⟩
    · dsimp only [Sweep.turnTo]
      split
      · intro h
        cases h
      · intro h
        cases h
    · dsimp only [Sweep.turnTo]
      split
      · intro h
        cases h
      · intro h
        cases h
  · constructor
    · exact hopen.nodup_concat
    · have hlt := hopen.lt
      rw [List.length_append, List.length_singleton]
      omega
    · rw [hfailures, hopen.settled.failures, List.length_append, List.length_singleton,
        Policy.severities_succ hopen.lt, List.append_assoc]
    · rw [hteller, hopen.settled.told, Policy.tellers_of_lt hopen.lt, List.nil_append]
  · obtain ⟨htidy, hattempts⟩ := hcounts.row (hrow.symm.trans hr)
    exact ⟨htidy, by simpa using hattempts⟩

theorem Standing.advance (h : Standing policy id base k d.store failed told (some s)) :
    Standing policy id base k (s.advance d).1.store failed (told ++ s.teller k id d)
      (some (s.advance d).2) := by
  have hsilent (hfails : s.activity.fails? ≠ some id) : told ++ s.teller k id d = told := by
    rw [Sweep.teller_of_not_fails hst hfails, List.append_nil]
  cases h with
  | settled hpassive hsettled hrow =>
    rw [hsilent (hpassive s rfl).not_fails]
    exact Standing.advance_passive hst (hpassive s rfl) hsettled hrow
  | waiting hpolicy hlive hdue hnodup hfits hholding hfails hcounts hopen =>
    rw [hsilent hfails]
    exact Standing.advance_waiting hst hpolicy hnodup hfits hholding hfails hcounts hopen
  | working hpolicy hahead hpending hid hfits hholding hfails hadmits hcounts hopen =>
    have hnot : s.activity.fails? ≠ some id := by
      rw [hfails]
      intro h
      cases h
    rw [hsilent hnot]
    exact Standing.advance_working hst hpolicy hahead hpending hid hfits hholding hfails hadmits
      hcounts hopen
  | releasing hpolicy hahead hact hid hfits hadmits hfailed hcounts hopen =>
    have hnone : s.teller k id d = [] := by
      apply Sweep.teller_of_not_reporting hst
      intro q attempts cause hact'
      rw [hact] at hact'
      cases hact'
    rw [hnone, List.append_nil]
    exact Standing.advance_releasing hpolicy hahead hact hid hfits hadmits hfailed hcounts hopen
  | reporting hpolicy hahead hact hid hfits hadmits hfailed hcounts hopen =>
    exact Standing.advance_reporting hpolicy hahead hact hid hfits hadmits hfailed hcounts hopen

end advance

/-! ## Answers -/

section answered
variable {policy : Policy} {id : Int} {base : List (Option String)} {k : Nat} {st : Store}
  {failed told : List Nat} {s : Sweep} (answer : Except Failure String) (d : Desk)

/-- The sweep, if the answer says that the call fails to deliver the message. -/
def Sweep.failer (k : Nat) (id : Int) (s : Sweep) (answer : Except Failure String) : List Nat :=
  if s.failing? answer = some id then [k] else []

theorem Sweep.failer_of_not_holding (hholding : s.activity.holding? ≠ some id) :
    s.failer k id answer = [] := by
  unfold failer
  split
  · rename_i hfailing
    exact absurd (holding_of_failing? hfailing) hholding
  · rfl

theorem Sweep.failer_of_busy (hbusy : s.isBusy = true) : s.failer k id answer = [] := by
  have hnone : s.failing? answer = none := by
    unfold failing?
    split
    · rename_i hact
      simp [isBusy, hact] at hbusy
    · rfl
  rw [failer, hnone, if_neg (Option.some_ne_none id).symm]

theorem Standing.answered_waiting (hpolicy : s.policy = policy) (hdue : id ∈ s.due.map (·.id))
    (hnodup : (s.due.map (·.id)).Nodup) (hfits : ∀ p ∈ s.due, p.id = id → p.Fits)
    (hholding : s.activity.holding? ≠ some id) (hfails : s.activity.fails? ≠ some id)
    (hcounts : st.Counts id failed.length) (hopen : Open policy id base k st failed told) :
    Standing policy id base k st failed told (some (s.answered answer d).2) := by
  by_cases hended : ∃ f, (s.answered answer d).2.activity = .ended f
  · exact hopen.passive hcounts (Or.inl hended)
  · have hfails' := Sweep.answered_not_fails answer d hholding hfails
    have hdue' := Sweep.answered_due answer s d
    refine .waiting ((Sweep.answered_policy answer s d).trans hpolicy) (fun f hf => hended ⟨f, hf⟩)
      ?_ ?_ ?_ (fun h => hholding (Sweep.answered_holding h)) hfails' hcounts hopen
    · rwa [hdue']
    · rwa [hdue']
    · rwa [hdue']

theorem Standing.answered_working (hpolicy : s.policy = policy) (hahead : id ∉ s.due.map (·.id))
    {p : Pending} (hpending : s.activity.pending? = some p) (hid : p.id = id) (hfits : p.Fits)
    (hholding : s.activity.holding? = some id) (hfails : s.activity.fails? = none)
    (hadmits : st.Admits id) (hcounts : st.Counts id failed.length)
    (hopen : Open policy id base k st failed told) :
    Standing policy id base k st (failed ++ s.failer k id answer) told
      (some (s.answered answer d).2) := by
  by_cases hbusy : s.isBusy = true
  · rw [Sweep.failer_of_busy answer hbusy, Sweep.answered_of_busy hbusy, List.append_nil]
    exact .working hpolicy hahead hpending hid hfits hholding hfails hadmits hcounts hopen
  cases hact : s.activity with
  | sending q recipient rest receipts =>
    obtain rfl : q = p := by simpa [hact, Activity.pending?] using hpending
    cases answer with
    | ok receipt =>
      have hnone : s.failer k id (.ok receipt) = [] := by simp [Sweep.failer, Sweep.failing?, hact]
      rw [hnone, Sweep.answered_ok hact, List.append_nil]
      exact .working hpolicy hahead rfl hid hfits (congrArg some hid) rfl hadmits hcounts hopen
    | error f =>
      rw [Sweep.answered_error hact]
      by_cases hcancel : f.isCancellation = true
      · have hnone : s.failer k id (.error f) = [] := by
          simp [Sweep.failer, Sweep.failing?, hact, hcancel]
        rw [hnone, if_pos hcancel, List.append_nil]
        exact .working hpolicy hahead rfl hid hfits (congrArg some hid) rfl hadmits hcounts hopen
      · have hself : s.failer k id (.error f) = [k] := by
          simp [Sweep.failer, Sweep.failing?, hact, hcancel, hid]
        rw [hself, if_neg hcancel]
        exact .releasing hpolicy hahead rfl hid hfits hadmits rfl hcounts hopen
  | noting | completing | releasing | returning => simp [Sweep.isBusy, hact] at hbusy
  | taking | confirming | reporting | alerting | ended => simp [hact, Activity.holding?] at hholding

theorem Standing.answered (h : Standing policy id base k st failed told (some s)) :
    Standing policy id base k st (failed ++ s.failer k id answer) told
      (some (s.answered answer d).2) := by
  have hsilent (hholding : s.activity.holding? ≠ some id) : failed ++ s.failer k id answer = failed := by
    rw [Sweep.failer_of_not_holding answer hholding, List.append_nil]
  cases h with
  | settled hpassive hsettled hrow =>
    have hpassive' := (hpassive s rfl).answered answer d
    rw [hsilent (hpassive s rfl).not_holding]
    exact .settled (fun s' hs' => Option.some.inj hs' ▸ hpassive') hsettled hrow
  | waiting hpolicy _ hdue hnodup hfits hholding hfails hcounts hopen =>
    rw [hsilent hholding]
    exact Standing.answered_waiting answer d hpolicy hdue hnodup hfits hholding hfails hcounts hopen
  | working hpolicy hahead hpending hid hfits hholding hfails hadmits hcounts hopen =>
    exact Standing.answered_working answer d hpolicy hahead hpending hid hfits hholding hfails hadmits
      hcounts hopen
  | releasing hpolicy hahead hact hid hfits hadmits hfailed hcounts hopen =>
    have hbusy : s.isBusy = true := by rw [Sweep.isBusy, hact]
    rw [Sweep.failer_of_busy answer hbusy, Sweep.answered_of_busy hbusy, List.append_nil]
    exact .releasing hpolicy hahead hact hid hfits hadmits hfailed hcounts hopen
  | reporting hpolicy hahead hact hid hfits hadmits hfailed hcounts hopen =>
    have hbusy : s.isBusy = true := by rw [Sweep.isBusy, hact]
    rw [Sweep.failer_of_busy answer hbusy, Sweep.answered_of_busy hbusy, List.append_nil]
    exact .reporting hpolicy hahead hact hid hfits hadmits hfailed hcounts hopen

end answered

/-! ## What a standing says -/

section standing
variable {policy : Policy} {id : Int} {base : List (Option String)} {k : Nat} {st : Store}
  {failed told : List Nat} {o : Option Sweep}

/-- A sweep that sends the message may do so. -/
theorem Standing.lt_of_holding {s : Sweep} (h : Standing policy id base k st failed told (some s))
    (hholding : s.activity.holding? = some id) (hfails : s.activity.fails? ≠ some id) :
    ∃ r, st.find? id = some r ∧ r.attempts < policy.retryLimit := by
  cases h with
  | settled hpassive => exact absurd hholding (hpassive s rfl).not_holding
  | waiting _ _ _ _ _ hnot => exact absurd hholding hnot
  | working _ _ _ _ _ _ _ _ hcounts hopen =>
    obtain ⟨r, hr, -, hattempts⟩ := hcounts
    exact ⟨r, hr, hattempts ▸ hopen.lt⟩
  | releasing _ _ hact hid =>
    rw [hact] at hfails
    exact absurd (congrArg some hid) hfails
  | reporting _ _ hact =>
    rw [hact] at hholding
    cases hholding

/-- A sweep fails to deliver the message once at most, and not too many of them do. -/
theorem Standing.failed_bounded (h : Standing policy id base k st failed told o) :
    failed.Nodup ∧ (failed.length : Int) ≤ policy.retryLimit := by
  have hconcat {earlier : List Nat} (hopen : Open policy id base k st earlier told) :
      (earlier ++ [k]).Nodup ∧ ((earlier ++ [k]).length : Int) ≤ policy.retryLimit := by
    have hlt := hopen.lt
    rw [List.length_append, List.length_singleton]
    exact ⟨hopen.nodup_concat, by omega⟩
  cases h with
  | settled _ hsettled => exact ⟨hsettled.nodup, hsettled.bounded⟩
  | waiting _ _ _ _ _ _ _ _ hopen => exact ⟨hopen.settled.nodup, hopen.settled.bounded⟩
  | working _ _ _ _ _ _ _ _ _ hopen => exact ⟨hopen.settled.nodup, hopen.settled.bounded⟩
  | releasing _ _ _ _ _ _ hfailed _ hopen => exact hfailed ▸ hconcat hopen
  | reporting _ _ _ _ _ _ hfailed _ hopen => exact hfailed ▸ hconcat hopen

/-- A message is never tried too often. -/
theorem Standing.bounded (h : Standing policy id base k st failed told o) {r : Row}
    (hr : st.find? id = some r) : r.attempts ≤ policy.retryLimit := by
  cases h with
  | settled _ hsettled hrow => exact (hrow r hr).2 ▸ hsettled.bounded
  | waiting _ _ _ _ _ _ _ hcounts hopen => exact (hcounts.row hr).2 ▸ hopen.settled.bounded
  | working _ _ _ _ _ _ _ _ hcounts hopen => exact (hcounts.row hr).2 ▸ hopen.settled.bounded
  | releasing _ _ _ _ _ _ _ hcounts hopen => exact (hcounts.row hr).2 ▸ hopen.settled.bounded
  | reporting _ _ _ _ _ _ _ hcounts hopen =>
    rw [(hcounts.row hr).2]
    exact hopen.lt

/-- Unless a failure of the message is just being counted or recorded, all of them are. -/
theorem Standing.settled_of_not_failing (h : Standing policy id base k st failed told o)
    (hfails : ∀ s, o = some s → s.activity.fails? ≠ some id) :
    Settled policy id base st failed told ∧
      ∀ r, st.find? id = some r → r.Tidy ∧ r.attempts = failed.length := by
  cases h with
  | settled _ hsettled hrow => exact ⟨hsettled, hrow⟩
  | waiting _ _ _ _ _ _ _ hcounts hopen => exact ⟨hopen.settled, fun _ hr => hcounts.row hr⟩
  | working _ _ _ _ _ _ _ _ hcounts hopen => exact ⟨hopen.settled, fun _ hr => hcounts.row hr⟩
  | releasing _ _ hact hid =>
    refine absurd ?_ (hfails _ rfl)
    rw [hact]
    exact congrArg some hid
  | reporting _ _ hact hid =>
    refine absurd ?_ (hfails _ rfl)
    rw [hact]
    exact congrArg some hid

/-- Where the failures of a message are settled, a sweep may begin. -/
theorem Settled.list {d : Desk} (h : Settled policy id base d.store failed told)
    (hst : d.store.WellNumbered)
    (hrow : ∀ r, d.store.find? id = some r → r.Tidy ∧ r.attempts = failed.length)
    (hfresh : k ∉ failed) (now : Calendar.Moment) :
    Standing policy id base k d.store failed told (some (Sweep.list policy now d)) := by
  obtain ⟨hnodup, hdue⟩ := Sweep.list_due hst policy now
  have hholding := Sweep.list_holding policy now d
  by_cases hmem : id ∈ (Sweep.list policy now d).due.map (·.id)
  · obtain ⟨p, hp, rfl⟩ := List.mem_map.mp hmem
    obtain ⟨r, hr, hpending, hlt⟩ := hdue p hp
    obtain ⟨htidy, hattempts⟩ := hrow r hr
    obtain ⟨hact, hword⟩ := Sweep.list_of_mem_due hp
    refine .waiting (Sweep.list_policy policy now d) ?_ hmem hnodup ?_ ?_ ?_ ⟨r, hr, htidy, hattempts⟩
      ⟨h, hattempts ▸ hlt, hword, hfresh⟩
    · intro f hended
      rw [hact] at hended
      cases hended
    · intro q hq hid
      obtain ⟨r', hr', hpending', -⟩ := hdue q hq
      rw [hid] at hr'
      cases hr.symm.trans hr'
      exact htidy.fits hpending'
    · rw [hholding]
      intro h
      cases h
    · rw [hact]
      intro h
      cases h
  · refine .settled (fun s hs => Option.some.inj hs ▸ Or.inr ⟨hmem, ?_, ?_⟩) h hrow
    · rw [hholding]
      intro h
      cases h
    · rw [Sweep.list_fails]
      intro h
      cases h

end standing

end Courier.Outbox
