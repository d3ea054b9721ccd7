import Courier.Proofs.Crew.Resumption
import Courier.Proofs.Outbox.Records

/-!
# Rounds

In a round some turns are made in which no sweep acts and nobody cancels, and then a sweep begins and
comes to its end while it is the only one that acts. If it lists a message that is free and returns,
then it claimed the message and gave it up again: the message is gone, or free as before.
-/

namespace Courier.Outbox

/-! ## What a message carries -/

/-- The row is that of a message with this title, this body and these recipients. -/
structure Row.Carries (title body : String) (recipients : List String) (r : Row) : Prop where
  title : r.title = title
  body : r.body = body
  recipients : loadList r.recipientsJson = .ok recipients

section carries
variable {title body : String} {recipients : List String} {id : Int}

theorem Sweep.Touch.carries {s : Sweep} {d : Desk} {o o' : Option Row} (h : s.Touch d id o o')
    (ho : ∀ r, o = some r → r.Carries title body recipients) (r' : Row) (hr' : o' = some r') :
    r'.Carries title body recipients := by
  cases h with
  | kept => exact ho r' hr'
  | claimed =>
    cases hr'
    obtain ⟨htitle, hbody, hrecipients⟩ := ho _ rfl
    exact ⟨htitle, hbody, hrecipients⟩
  | noted =>
    cases hr'
    obtain ⟨htitle, hbody, hrecipients⟩ := ho _ rfl
    unfold Row.noted
    split
    · exact ⟨htitle, hbody, hrecipients⟩
    · exact ⟨htitle, hbody, hrecipients⟩
  | completed => cases hr'
  | released | returned =>
    obtain ⟨r, hr, rfl⟩ := Option.map_eq_some_iff.mp hr'
    obtain ⟨htitle, hbody, hrecipients⟩ := ho r hr
    exact ⟨htitle, hbody, hrecipients⟩

theorem Crew.carries_turn {c : Crew} (hc : c.store.WellNumbered) (hknown : id ≤ c.store.lastId)
    (h : ∀ r, c.store.find? id = some r → r.Carries title body recipients) (t : Turn) (r' : Row)
    (hr' : (c.turn t).store.find? id = some r') : r'.Carries title body recipients := by
  have hrow := (Crew.turn_step hc t).row hc id
  rw [hr'] at hrow
  generalize ho : c.store.find? id = o at hrow h
  cases hrow with
  | kept => exact h r' rfl
  | stored _ _ hnew => omega
  | touched _ _ htouch => exact htouch.carries h r' rfl

theorem Crew.carries_after {c : Crew} (hc : c.store.WellNumbered) (hknown : id ≤ c.store.lastId)
    (h : ∀ r, c.store.find? id = some r → r.Carries title body recipients) (ts : List Turn) (r' : Row)
    (hr' : (c.after ts).store.find? id = some r') : r'.Carries title body recipients := by
  induction ts generalizing c with
  | nil => exact h r' hr'
  | cons t ts ih =>
    have hstep := Crew.turn_step hc t
    exact ih (hstep.wellNumbered hc) (Int.le_trans hknown hstep.lastId_le)
      (Crew.carries_turn hc hknown h t) hr'

end carries

/-! ## A sweep that lists a free message -/

/-- A sweep that holds a message does so whatever it is answered. -/
theorem Sweep.holding_answered {s : Sweep} {id : Int} (h : s.activity.holding? = some id)
    (answer : Except Failure String) (d : Desk) :
    (s.answered answer d).2.activity.holding? = some id := by
  cases hact : s.activity with
  | sending p recipient rest receipts =>
    rw [hact] at h
    cases answer with
    | ok receipt =>
      rw [answered_ok hact]
      exact h
    | error f =>
      rw [answered_error hact]
      dsimp only [turnTo]
      split
      · exact h
      · exact h
  | noting | completing | releasing | returning =>
    rw [answered_of_busy (by rw [isBusy, hact])]
    exact h
  | taking | confirming | reporting | alerting | ended =>
    rw [hact] at h
    cases h

/-- What a sweep made so far of a message that it listed while nobody held it. -/
inductive Sweep.Attends (s : Sweep) (id : Int) (o : Option Row) (claimed : Prop) : Prop where
  | ahead {r : Row} (hid : id ∈ s.due.map (·.id)) (hholding : s.activity.holding? ≠ some id)
    (hlive : s.activity ≠ .ended none) (hr : o = some r) (hfree : r.claimedAt = none)
  | begun (hclaimed : claimed)
    (hheld : ∀ r, o = some r → r.claimedAt ≠ none → s.activity.holding? = some id)
  | broken (f : Failure) (hact : s.activity = .ended (some f))

namespace Sweep
variable {s s' : Sweep} {id : Int} {d : Desk} {st' : Store} {claimed claimed' : Prop}

theorem Attends.mono {o : Option Row} (h : s.Attends id o claimed) (hle : claimed → claimed') :
    s.Attends id o claimed' := by
  cases h with
  | ahead hid hholding hlive hr hfree => exact .ahead hid hholding hlive hr hfree
  | begun hclaimed hheld => exact .begun (hle hclaimed) hheld
  | broken f hact => exact .broken f hact

/-- A sweep does not pass over a message that is free. -/
theorem Attends.ahead_step (hst : d.store.WellNumbered) (hstep : s.Step d s' st')
    (hs' : s' = (s.advance d).2) (hid : id ∈ s.due.map (·.id))
    (hholding : s.activity.holding? ≠ some id) (hlive : s.activity ≠ .ended none)
    (hclaims : s.claims? d ≠ some id) {r : Row} (hr : d.store.find? id = some r)
    (hfree : r.claimedAt = none) : s'.Attends id (st'.find? id) claimed := by
  have hrow := (hstep.touch hst id).eq_of_not_holding hholding hclaims
  have hholding' : s'.activity.holding? ≠ some id := fun hheld =>
    (hstep.holding hheld).elim hclaims fun h => hholding h.1
  rw [hrow]
  cases hstep with
  | still => exact .ahead hid hholding hlive hr hfree
  | finished _ hdue => simp [hdue] at hid
  | @passed p due hact hdue =>
    have hne : p.id ≠ id := by
      rintro rfl
      exact claimed_of_passed hst hact hdue (by rw [← hs']) hr hfree
    rw [hdue, List.map_cons, List.mem_cons] at hid
    exact .ahead (hid.resolve_left hne.symm) hholding' (by simp) hr hfree
  | @claimed p due _ _ _ _ hdue hclaims' =>
    have hne : p.id ≠ id := fun hp => hclaims (hp ▸ hclaims')
    rw [hdue, List.map_cons, List.mem_cons] at hid
    refine .ahead (hid.resolve_left hne.symm) hholding' ?_ hr hfree
    cases p.remaining <;> simp [Activity.toNext]
  | stuck f => exact .broken f rfl
  | returned => exact .broken _ rfl
  | @noted p _ rest receipts | @absent p _ rest receipts =>
    refine .ahead hid hholding' ?_ hr hfree
    cases rest <;> simp [turnTo, Activity.toNext]
  | unnoted | completed | confirmed | released =>
    exact .ahead hid hholding' (by simp [turnTo]) hr hfree
  | reported _ _ hnext =>
    refine .ahead hid hholding' ?_ hr hfree
    rcases hnext with rfl | rfl
    · simp [turnTo]
    · simp [turnTo]

/-- A sweep that gives up a message leaves its row free. -/
theorem Attends.held_step (hst : d.store.WellNumbered) (hstep : s.Step d s' st')
    (hheld : s.activity.holding? = some id) (hclaimed : claimed) :
    s'.Attends id (st'.find? id) claimed := by
  have hnone (a : Activity) (hact : s.activity = a) (ha : a.holding? = none) :
      s'.Attends id (st'.find? id) claimed := by
    rw [hact, ha] at hheld
    cases hheld
  cases hstep with
  | still => exact .begun hclaimed fun _ _ _ => hheld
  | finished hact | passed hact | claimed _ hact | confirmed hact | reported hact =>
    exact hnone _ hact rfl
  | stuck f => exact .broken f rfl
  | returned => exact .broken _ rfl
  | noted hact | absent hact =>
    rw [hact] at hheld
    exact .begun hclaimed fun _ _ _ => (Activity.holding?_toNext _ _ _).trans hheld
  | unnoted _ hact =>
    rw [hact] at hheld
    exact .begun hclaimed fun _ _ _ => hheld
  | completed hact =>
    rw [hact] at hheld
    cases hheld
    refine .begun hclaimed fun r hr => ?_
    rw [Store.find?_remove hst, Option.filter_eq_some_iff] at hr
    exact absurd (Store.id_of_find? hr.1) (by simpa using hr.2)
  | released _ hact =>
    rw [hact] at hheld
    cases hheld
    refine .begun hclaimed fun r hr hr' => ?_
    rw [Store.find?_modify_self (Row.keepsId_failed _)] at hr
    obtain ⟨_, -, rfl⟩ := Option.map_eq_some_iff.mp hr
    exact absurd rfl hr'

theorem Attends.step (h : s.Attends id (d.store.find? id) claimed) (hst : d.store.WellNumbered)
    (hstep : s.Step d s' st') (hs' : s' = (s.advance d).2) :
    s'.Attends id (st'.find? id) (claimed ∨ s.claims? d = some id) := by
  by_cases hclaims : s.claims? d = some id
  · obtain ⟨p, due, _, _, _, -, -, rfl, -, -, -, -, rfl, -⟩ := hstep.of_claims hclaims
    exact .begun (Or.inr hclaims) fun _ _ _ => Activity.holding?_toNext p [] p.remaining
  cases h with
  | ahead hid hholding hlive hr hfree =>
    exact .ahead_step hst hstep hs' hid hholding hlive hclaims hr hfree
  | begun hclaimed hheld =>
    by_cases hholding : s.activity.holding? = some id
    · exact .held_step hst hstep hholding (Or.inl hclaimed)
    · rw [(hstep.touch hst id).eq_of_not_holding hholding hclaims]
      exact .begun (Or.inl hclaimed) fun r hr hr' => absurd (hheld r hr hr') hholding
  | broken f hact =>
    obtain ⟨rfl, -⟩ := hstep.of_not_busy (by rw [isBusy, hact])
    exact .broken f hact

theorem Attends.answered {o : Option Row} (h : s.Attends id o claimed)
    (answer : Except Failure String) : (s.answered answer d).2.Attends id o claimed := by
  cases h with
  | ahead hid hholding hlive hr hfree =>
    refine .ahead (by rwa [answered_due]) (fun hheld => hholding (answered_holding hheld)) ?_ hr hfree
    unfold Sweep.answered
    split
    · simp [turnTo]
    · dsimp only [turnTo]
      split
      · simp
      · simp
    · simp [turnTo]
    · split
      · simp [stopWith, turnTo]
      · simp [turnTo]
    · exact hlive
  | begun hclaimed hheld =>
    exact .begun hclaimed fun r hr hr' => holding_answered (hheld r hr hr') answer d
  | broken f hact =>
    have hignores : s.answered answer d = (d, s) := by simp [Sweep.answered, hact]
    rw [hignores]
    exact .broken f hact

/-- The sweep came to its end, and no failure ended it. -/
def hasReturned (s : Sweep) : Bool :=
  match s.activity with
  | .ended none => true
  | _ => false

theorem ended_of_hasReturned (h : s.hasReturned = true) : s.activity = .ended none := by
  unfold hasReturned at h
  split at h
  · assumption
  · cases h

end Sweep

namespace Crew

section alone
variable {c : Crew} {i : Nat} {id : Int} {claimed : Prop}

/-- The sweep at a place attends to the message. -/
def Attends (c : Crew) (i : Nat) (id : Int) (claimed : Prop) : Prop :=
  ∃ s, c.sweeps[i]? = some s ∧ s.Attends id (c.store.find? id) claimed

theorem Attends.turn (h : c.Attends i id claimed) (hc : c.store.WellNumbered)
    (hknown : id ≤ c.store.lastId) {t : Turn} (ht : t.Alone i) :
    (c.turn t).Attends i id (claimed ∨ c.claim? t = some (i, id)) := by
  obtain ⟨s, hs, h⟩ := h
  obtain ⟨s', hs', hturn⟩ := (turn_step hc t).sweepTurn hs
  refine ⟨s', hs', ?_⟩
  cases hturn with
  | kept hother =>
    rcases row_turn_alone hc ht hknown hs with hrow | ⟨rfl, -⟩
    · exact hrow ▸ h.mono Or.inl
    · exact absurd rfl hother
  | advanced hturn hstep =>
    subst hturn
    have he : s' = (s.advance c.desk).2 := Option.some.inj (hs'.symm.trans (sweep_turn_advance hs))
    refine (h.step hc hstep he).mono (Or.imp_right fun hclaims => ?_)
    exact seeAdvance_eq_some.mpr ⟨rfl, s, hs, hclaims⟩
  | answered answer hturn =>
    subst hturn
    rcases row_turn_alone hc ht hknown hs with hrow | ⟨hturn, -⟩
    · exact hrow ▸ (h.answered answer).mono Or.inl
    · cases hturn

theorem Attends.after (h : c.Attends i id claimed) (hc : c.store.WellNumbered)
    (hknown : id ≤ c.store.lastId) {ts : List Turn} (hts : ∀ t ∈ ts, t.Alone i) :
    (c.after ts).Attends i id (claimed ∨ (i, id) ∈ c.along claim? ts) := by
  induction ts generalizing c claimed with
  | nil =>
    obtain ⟨s, hs, h⟩ := h
    exact ⟨s, hs, h.mono Or.inl⟩
  | cons t ts ih =>
    have hstep := turn_step hc t
    have hnext := h.turn hc hknown (hts t List.mem_cons_self)
    obtain ⟨s, hs, hlast⟩ := ih hnext (hstep.wellNumbered hc) (Int.le_trans hknown hstep.lastId_le)
      fun u hu => hts u (List.mem_cons_of_mem t hu)
    refine ⟨s, hs, hlast.mono ?_⟩
    rintro ((hclaimed | hclaim) | hclaim)
    · exact Or.inl hclaimed
    · exact Or.inr (List.mem_append_left _ (Option.mem_toList.mpr hclaim))
    · exact Or.inr (List.mem_append_right _ hclaim)

theorem attends_join {policy : Policy} {now : Calendar.Moment} {r : Row}
    (hlisted : id ∈ (Sweep.list policy now c.desk).due.map (·.id)) (hr : c.store.find? id = some r)
    (hfree : r.claimedAt = none) :
    (c.turn (.join policy now)).Attends c.sweeps.length id False := by
  refine ⟨Sweep.list policy now c.desk, by simp [turn], .ahead hlisted ?_ ?_ hr hfree⟩
  · simp [Sweep.list_holding]
  · unfold Sweep.list at hlisted ⊢
    split
    · rename_i hlist
      simp [hlist] at hlisted
    · simp

/-- A sweep that lists a free message, acts alone and returns has claimed it and leaves it free. -/
theorem claimed_and_freed (hc : c.store.WellNumbered) {policy : Policy} {now : Calendar.Moment}
    {r : Row} (hlisted : id ∈ (Sweep.list policy now c.desk).due.map (·.id))
    (hr : c.store.find? id = some r) (hfree : r.claimedAt = none) {ts : List Turn}
    (halone : ∀ t ∈ ts, t.Alone c.sweeps.length) {s : Sweep}
    (hs : (c.after (.join policy now :: ts)).sweeps[c.sweeps.length]? = some s)
    (hreturned : s.activity = .ended none) :
    (c.sweeps.length, id) ∈ c.along claim? (.join policy now :: ts) ∧
      ∀ r', (c.after (.join policy now :: ts)).store.find? id = some r' → r'.claimedAt = none := by
  have hknown := Store.le_lastId_of_find? hc hr
  have hc₁ := (turn_step hc (.join policy now)).wellNumbered hc
  obtain ⟨s', hs', hattends⟩ := (attends_join hlisted hr hfree).after hc₁ hknown halone
  cases hs.symm.trans hs'
  cases hattends with
  | ahead _ _ hlive => exact absurd hreturned hlive
  | begun hclaimed hheld =>
    refine ⟨List.mem_append_right _ (hclaimed.resolve_left not_false), fun r' hr' => ?_⟩
    apply Decidable.not_not.mp
    intro hclaimed'
    have hholding := hheld r' hr' hclaimed'
    rw [hreturned] at hholding
    cases hholding
  | broken f hact =>
    rw [hreturned] at hact
    cases hact

end alone

end Crew

/-! ## Rounds -/

/-- No sweep acts in the turn, and nothing is cancelled. -/
structure Turn.Idle (t : Turn) : Prop where
  sweep : t.sweep? = none
  isCancel : t.isCancel = false

/-- Turns in which no sweep acts, and a sweep that begins after them. -/
structure Round where
  pause : List Turn
  policy : Policy
  now : Calendar.Moment
  work : List Turn

def Round.turns (round : Round) : List Turn :=
  round.pause ++ .join round.policy round.now :: round.work

namespace Crew
variable {c : Crew} {id : Int}

theorem idle_after (hc : c.store.WellNumbered) (hknown : id ≤ c.store.lastId) {ts : List Turn}
    (hts : ∀ t ∈ ts, t.Idle) :
    (c.after ts).store.find? id = c.store.find? id ∧ c.calls ts id = [] := by
  induction ts generalizing c with
  | nil => exact ⟨rfl, rfl⟩
  | cons t ts ih =>
    have ht := hts t List.mem_cons_self
    have hstep := turn_step hc t
    obtain ⟨hrow', hcalls'⟩ := ih (hstep.wellNumbered hc) (Int.le_trans hknown hstep.lastId_le)
      fun u hu => hts u (List.mem_cons_of_mem t hu)
    have hrow : (c.turn t).store.find? id = c.store.find? id := by
      have hrow := hstep.row hc id
      generalize (c.turn t).store.find? id = o' at hrow
      generalize c.store.find? id = o at hrow
      cases hrow with
      | kept => rfl
      | stored _ _ hnew => omega
      | cancelled hcancel =>
        rw [ht.isCancel] at hcancel
        cases hcancel
      | touched hturn =>
        have hsweep := ht.sweep
        rw [hturn] at hsweep
        cases hsweep
    have hcalls : c.calls [t] id = [] := calls_eq_nil fun call hcall => by
      have hsweep := ht.sweep
      rw [(call?_eq_some hcall).1] at hsweep
      cases hsweep
    rw [after_cons, calls_cons, hrow', hrow, hcalls', hcalls]
    exact ⟨rfl, rfl⟩

/-- In the round a sweep lists the message and returns, and is the only one that acts. -/
structure Works (c : Crew) (id : Int) (round : Round) : Prop where
  idle : ∀ t ∈ round.pause, t.Idle
  alone : ∀ t ∈ round.work, t.Alone (c.after round.pause).sweeps.length
  listed : id ∈ (Sweep.list round.policy round.now (c.after round.pause).desk).due.map (·.id)
  returns : ∃ s, (c.after round.turns).sweeps[(c.after round.pause).sweeps.length]? = some s ∧
    s.hasReturned = true

/-- The sweep of a round ends its work on the message, and leaves it free. -/
theorem Works.ended {round : Round} (h : c.Works id round) (hc : c.store.WellNumbered) {r : Row}
    (hr : c.store.find? id = some r) (hfree : r.claimedAt = none) :
    ∃ p, r.pending = .ok p ∧
      p.Ended ((c.after round.turns).store.find? id) (c.calls round.turns id) ∧
      ∀ r', (c.after round.turns).store.find? id = some r' → r'.claimedAt = none := by
  have hknown := Store.le_lastId_of_find? hc hr
  obtain ⟨hrow, hpaused⟩ := idle_after hc hknown h.idle
  have hc₁ := wellNumbered_after hc round.pause
  obtain ⟨s, hs, hreturned⟩ := h.returns
  have hend := Sweep.ended_of_hasReturned hreturned
  rw [Round.turns, after_append] at hs ⊢
  obtain ⟨hclaim, hfreed⟩ :=
    claimed_and_freed hc₁ h.listed (hrow.trans hr) hfree h.alone hs hend
  have hover : s.outcome?.isSome = true := by rw [Sweep.outcome?, hend]; rfl
  obtain ⟨p, hp, rfl, hended⟩ := ended_after_sweep hc₁ h.alone hclaim ⟨s, hs, hover⟩
  obtain ⟨r', hr', hpending, -⟩ := (Sweep.list_due hc₁ round.policy round.now).2 p hp
  cases hr'.symm.trans (hrow.trans hr)
  rw [calls_append, hpaused]
  exact ⟨p, hpending, hended, hfreed⟩

end Crew

end Courier.Outbox
