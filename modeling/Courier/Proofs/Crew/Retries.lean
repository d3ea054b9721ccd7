import Courier.Proofs.Crew.Deeds
import Courier.Proofs.Crew.Resumption
import Courier.Proofs.Outbox.Standing

/-!
# Retries of a message

Sweeps with one policy follow one another, and others act on other messages. A message is sent again
in each sweep that finds it due, until it was tried as often as the policy allows. Its row counts the
sweeps in which it failed, the audit log tells of each of them, and the operator is told of the last.
-/

namespace Courier.Outbox

open Message (Payload)

namespace Crew

/-! ## What is seen of failures -/

/-- The call failed, and was not cancelled. -/
def Call.isFailure (call : Call) : Bool :=
  match call.answer with
  | .ok _ => false
  | .error f => !f.isCancellation

/-- The sweep, the message and the call, if a turn leads to a call that tells the operator. -/
def tell? : Crew → Turn → Option (Nat × Int × Payload) :=
  seeAdvance Sweep.tell?

/-- The sweeps that failed to deliver a message, once for each call that failed. -/
def failedSweeps (c : Crew) (ds : List Deed) (id : Int) : List Nat :=
  ((c.watch call? ds).filter fun call => call.id == id && call.isFailure).map (·.sweep)

/-- The sweeps that told the operator of a message, once for each call. -/
def tellingSweeps (c : Crew) (ds : List Deed) (id : Int) : List Nat :=
  ((c.watch tell? ds).filter fun told => told.2.1 == id).map (·.1)

section seen
variable (c : Crew) (d : Deed) (ds : List Deed) (id : Int)

theorem failedSweeps_cons :
    c.failedSweeps (d :: ds) id = c.failedSweeps [d] id ++ (c.deed d).failedSweeps ds id := by
  rw [failedSweeps, watch_cons, List.filter_append, List.map_append]
  rfl

theorem tellingSweeps_cons :
    c.tellingSweeps (d :: ds) id = c.tellingSweeps [d] id ++ (c.deed d).tellingSweeps ds id := by
  rw [tellingSweeps, watch_cons, List.filter_append, List.map_append]
  rfl

variable {c id}

theorem failedSweeps_answer {i : Nat} {s : Sweep} (hs : c.sweeps[i]? = some s)
    (answer : Except Failure String) :
    c.failedSweeps [.turn (.answer i answer)] id = s.failer i id answer := by
  unfold failedSweeps Sweep.failer Sweep.failing?
  cases hact : s.activity with
  | sending p recipient rest receipts =>
    cases answer with
    | ok receipt => simp [watch, call?, hs, hact, Sweep.request?, Call.isFailure]
    | error f =>
      by_cases hcancel : f.isCancellation = true
      · simp [watch, call?, hs, hact, Sweep.request?, Call.isFailure, hcancel]
      · by_cases hid : p.id = id
        · simp [watch, call?, hs, hact, Sweep.request?, Call.isFailure, hcancel, hid]
        · simp [watch, call?, hs, hact, Sweep.request?, Call.isFailure, hcancel, hid]
  | _ => simp [watch, call?, hs, hact]

theorem failedSweeps_of_not_answer {d : Deed}
    (h : ∀ i answer s, d = .turn (.answer i answer) → c.sweeps[i]? ≠ some s) :
    c.failedSweeps [d] id = [] := by
  have hnone : c.watch call? [d] = [] := by
    cases d with
    | errand => rfl
    | turn t =>
      cases hcall : c.call? t with
      | none => simp [watch, hcall]
      | some call =>
        obtain ⟨rfl, s, _, _, _, _, hs, -⟩ := call?_eq_some hcall
        exact absurd hs (h _ _ s rfl)
  rw [failedSweeps, hnone]
  rfl

theorem tellingSweeps_advance {i : Nat} {s : Sweep} (hs : c.sweeps[i]? = some s) :
    c.tellingSweeps [.turn (.advance i)] id = s.teller i id c.desk := by
  unfold tellingSweeps Sweep.teller
  cases htell : s.tell? c.desk with
  | none => simp [watch, tell?, seeAdvance, hs, htell]
  | some told =>
    by_cases hid : told.1 = id
    · simp [watch, tell?, seeAdvance, hs, htell, hid]
    · simp [watch, tell?, seeAdvance, hs, htell, hid]

theorem tellingSweeps_of_not_advance {d : Deed}
    (h : ∀ i s, d = .turn (.advance i) → c.sweeps[i]? ≠ some s) : c.tellingSweeps [d] id = [] := by
  have hnone : c.watch tell? [d] = [] := by
    cases d with
    | errand => rfl
    | turn t =>
      cases htell : c.tell? t with
      | none => simp [watch, htell]
      | some told =>
        obtain ⟨rfl, s, hs, -⟩ := seeAdvance_eq_some.mp htell
        exact absurd hs (h _ s rfl)
  rw [tellingSweeps, hnone]
  rfl

end seen

/-! ## Accounts -/

/-- The deed concerns other messages. -/
structure Spares (c : Crew) (d : Deed) (id : Int) : Prop where
  row : (c.deed d).store.find? id = c.store.find? id
  failures : (c.deed d).store.failures id = c.store.failures id

section spares
variable {c : Crew} (hc : c.store.WellNumbered) {id : Int}
include hc

theorem spares_errand {e : Errand} {k : Int} (he : e.id? = some k) (hk : k ≠ id) :
    c.Spares (.errand e) id := by
  have hchanged := errand_changed hc he
  exact ⟨hchanged.others hc hk, Store.failures_of_events_eq hchanged.events⟩

/-- Whatever is done by others than sweeps spares the messages that it does not delete. -/
theorem spares_turn {t : Turn} (ht : t.sweep? = none) {r : Row} (hr : c.store.find? id = some r)
    (hstays : (c.turn t).store.find? id ≠ none) : c.Spares (.turn t) id := by
  have hstep := turn_step hc t
  constructor
  · have hrow := hstep.row hc id
    rw [hr] at hrow
    change (c.turn t).store.find? id = c.store.find? id
    rw [hr]
    generalize (c.turn t).store.find? id = o at hrow hstays ⊢
    cases hrow with
    | kept => rfl
    | cancelled => exact absurd rfl hstays
    | touched hadvance =>
      subst hadvance
      cases ht
  · apply Store.failures_of_events_eq
    cases hstep with
    | still _ hstore | joined _ _ hstore => exact congrArg Store.events hstore
    | stored _ _ hstore | cancelled _ _ _ hstore => exact (congrArg Store.events hstore).trans rfl
    | advanced | answered => cases ht

end spares

/-- A sweep begins with the policy and after all others are over, and nobody but sweeps acts on the
message. -/
def InOrder (policy : Policy) (id : Int) (c : Crew) : Deed → Prop
  | .turn (.advance _) | .turn (.answer _ _) => True
  | .turn (.join policy' _) => policy' = policy ∧ ∀ s ∈ c.sweeps, s.outcome?.isSome = true
  | d => c.Spares d id

/-- A sweep that begins after all others are over finds none of them at work. -/
theorem passive_join {c : Crew} (hover : ∀ s ∈ c.sweeps, s.outcome?.isSome = true) {policy : Policy}
    {now : Calendar.Moment} {i : Nat} {s : Sweep} {id : Int}
    (hs : (c.turn (.join policy now)).sweeps[i]? = some s) (hi : i ≠ c.sweeps.length) :
    s.Passive id := by
  have hlt := (List.getElem?_eq_some_iff.mp hs).1
  simp only [turn, List.length_append, List.length_singleton] at hlt
  simp only [turn] at hs
  rw [List.getElem?_append_left (by omega)] at hs
  exact Or.inl (Sweep.ended_of_over (hover s (List.mem_of_getElem? hs)))

/-- All deeds are in order. -/
def Orderly (policy : Policy) (id : Int) : Crew → List Deed → Prop
  | _, [] => True
  | c, d :: ds => c.InOrder policy id d ∧ Orderly policy id (c.deed d) ds

/-- The failures of a message so far. No sweep but the one with a certain number is at work on it, or
will be. -/
structure Account (policy : Policy) (id : Int) (base : List (Option String)) (c : Crew) (k : Nat)
    (failed told : List Nat) : Prop where
  wellNumbered : c.store.WellNumbered
  begun : ∀ j ∈ failed, j < c.sweeps.length
  others : ∀ (j : Nat) (s : Sweep), c.sweeps[j]? = some s → j ≠ k → s.Passive id
  standing : Standing policy id base k c.store failed told c.sweeps[k]?

section account
variable {policy : Policy} {id : Int} {base : List (Option String)} {c : Crew} {k : Nat}
  {failed told : List Nat}

/-- Nothing happened to the message or to the sweeps. -/
theorem Account.spared (h : Account policy id base c k failed told) {d : Deed} (hd : c.Spares d id)
    (hsweeps : (c.deed d).sweeps = c.sweeps) : Account policy id base (c.deed d) k failed told where
  wellNumbered := deed_wellNumbered h.wellNumbered d
  begun := hsweeps ▸ h.begun
  others := hsweeps ▸ h.others
  standing := by
    rw [hsweeps]
    exact h.standing.transfer hd.row hd.failures (deed_closed h.wellNumbered d)

theorem Account.join (h : Account policy id base c k failed told)
    (hover : ∀ s ∈ c.sweeps, s.outcome?.isSome = true) (now : Calendar.Moment) :
    Account policy id base (c.turn (.join policy now)) c.sweeps.length failed told := by
  -- A sweep that is over has counted and recorded its failure, so the next one finds all settled.
  have hsettled := h.standing.settled_of_not_failing fun s hs => by
    obtain ⟨f, hf⟩ := Sweep.ended_of_over (hover s (List.mem_of_getElem? hs))
    rw [hf]
    intro h
    cases h
  have hfresh : c.sweeps.length ∉ failed := fun hmem => Nat.lt_irrefl _ (h.begun _ hmem)
  refine ⟨deed_wellNumbered h.wellNumbered (.turn (.join policy now)), ?_,
    fun j s hs hj => passive_join hover hs hj, ?_⟩
  · intro j hj
    have hlt := h.begun j hj
    simp only [turn, List.length_append]
    omega
  · have hlast : (c.turn (.join policy now)).sweeps[c.sweeps.length]? =
        some (Sweep.list policy now c.desk) := by simp [turn]
    rw [hlast]
    exact hsettled.1.list h.wellNumbered hsettled.2 hfresh now

theorem Account.advance (h : Account policy id base c k failed told) {i : Nat} {s : Sweep}
    (hs : c.sweeps[i]? = some s) :
    Account policy id base (c.turn (.advance i)) k failed (told ++ s.teller i id c.desk) := by
  have hi := (List.getElem?_eq_some_iff.mp hs).1
  have hstep := Sweep.advance_step (s := s) (d := c.desk) h.wellNumbered
  have hwell : (c.turn (.advance i)).store.WellNumbered :=
    deed_wellNumbered h.wellNumbered (.turn (.advance i))
  rw [turn_advance hs] at hwell ⊢
  refine ⟨hwell, by simpa using h.begun, ?_, ?_⟩
  · intro j s' hs' hj
    rcases getElem?_set_cases hs' with ⟨rfl, rfl⟩ | ⟨-, hs'⟩
    · exact ((h.others i s hs hj).step hstep h.wellNumbered).1
    · exact h.others j s' hs' hj
  · change Standing policy id base k (s.advance c.desk).1.store failed _ (c.sweeps.set i _)[k]?
    by_cases hik : i = k
    · subst hik
      have hstanding := h.standing
      rw [hs] at hstanding
      rw [List.getElem?_set_self hi]
      exact hstanding.advance h.wellNumbered
    · have hpassive := h.others i s hs hik
      rw [Sweep.teller_of_not_fails h.wellNumbered hpassive.not_fails, List.append_nil]
      have hkept := (hpassive.step hstep h.wellNumbered).2
      have hfailures := Sweep.failures_advance h.wellNumbered hpassive.not_fails
      rw [List.getElem?_set_ne hik]
      exact h.standing.transfer hkept hfailures hstep.closed_eq

theorem Account.answer (h : Account policy id base c k failed told) {i : Nat} {s : Sweep}
    (hs : c.sweeps[i]? = some s) (answer : Except Failure String) :
    Account policy id base (c.turn (.answer i answer)) k (failed ++ s.failer i id answer) told := by
  have hi := (List.getElem?_eq_some_iff.mp hs).1
  have hwell : (c.turn (.answer i answer)).store.WellNumbered :=
    deed_wellNumbered h.wellNumbered (.turn (.answer i answer))
  have hstore : (s.answered answer c.desk).1.store = c.store := Sweep.answered_store answer s c.desk
  rw [turn_answer hs] at hwell ⊢
  refine ⟨hwell, ?_, ?_, ?_⟩
  · intro j hj
    rw [List.length_set]
    rcases List.mem_append.mp hj with hj | hj
    · exact h.begun j hj
    · unfold Sweep.failer at hj
      split at hj
      · rw [List.mem_singleton] at hj
        exact hj ▸ hi
      · cases hj
  · intro j s' hs' hj
    rcases getElem?_set_cases hs' with ⟨rfl, rfl⟩ | ⟨-, hs'⟩
    · exact (h.others i s hs hj).answered answer c.desk
    · exact h.others j s' hs' hj
  · change Standing policy id base k (s.answered answer c.desk).1.store _ told (c.sweeps.set i _)[k]?
    rw [hstore]
    by_cases hik : i = k
    · subst hik
      have hstanding := h.standing
      rw [hs] at hstanding
      rw [List.getElem?_set_self hi]
      exact hstanding.answered answer c.desk
    · have hpassive := h.others i s hs hik
      rw [Sweep.failer_of_not_holding answer hpassive.not_holding, List.append_nil,
        List.getElem?_set_ne hik]
      exact h.standing

/-- A turn of a sweep that does not exist is none. -/
theorem turn_absent {t : Turn} {i : Nat} (ht : t.sweep? = some i) (hs : c.sweeps[i]? = none) :
    c.turn t = c := by
  cases t with
  | advance j | answer j =>
    cases ht
    simp [turn, act, hs]
  | _ => cases ht

theorem Account.unseen {d : Deed} {c' : Crew} {k' : Nat}
    (h : Account policy id base c' k' failed told) (hfailed : c.failedSweeps [d] id = [])
    (htold : c.tellingSweeps [d] id = []) :
    Account policy id base c' k' (failed ++ c.failedSweeps [d] id) (told ++ c.tellingSweeps [d] id) := by
  rw [hfailed, htold, List.append_nil, List.append_nil]
  exact h

theorem Account.unseen_of_other {d : Deed} {c' : Crew} {k' : Nat}
    (h : Account policy id base c' k' failed told) (hanswer : ∀ i answer, d ≠ .turn (.answer i answer))
    (hadvance : ∀ i, d ≠ .turn (.advance i)) :
    Account policy id base c' k' (failed ++ c.failedSweeps [d] id) (told ++ c.tellingSweeps [d] id) :=
  h.unseen (failedSweeps_of_not_answer fun i answer _ hd => absurd hd (hanswer i answer))
    (tellingSweeps_of_not_advance fun i _ hd => absurd hd (hadvance i))

theorem Account.turn (h : Account policy id base c k failed told) {t : Turn}
    (ht : c.InOrder policy id (.turn t)) :
    ∃ k', Account policy id base (c.turn t) k' (failed ++ c.failedSweeps [.turn t] id)
      (told ++ c.tellingSweeps [.turn t] id) := by
  cases t with
  | advance i =>
    have hfailed : c.failedSweeps [.turn (.advance i)] id = [] :=
      failedSweeps_of_not_answer fun _ _ _ hd => by cases hd
    cases hs : c.sweeps[i]? with
    | none =>
      rw [turn_absent rfl hs]
      refine ⟨k, h.unseen hfailed (tellingSweeps_of_not_advance fun j s hj => ?_)⟩
      cases hj
      rw [hs]
      intro h
      cases h
    | some s =>
      rw [hfailed, tellingSweeps_advance hs, List.append_nil]
      exact ⟨k, h.advance hs⟩
  | answer i answer =>
    have htold : c.tellingSweeps [.turn (.answer i answer)] id = [] :=
      tellingSweeps_of_not_advance fun _ _ hd => by cases hd
    cases hs : c.sweeps[i]? with
    | none =>
      rw [turn_absent rfl hs]
      refine ⟨k, h.unseen (failedSweeps_of_not_answer fun j answer' s hj => ?_) htold⟩
      cases hj
      rw [hs]
      intro h
      cases h
    | some s =>
      rw [htold, failedSweeps_answer hs, List.append_nil]
      exact ⟨k, h.answer hs answer⟩
  | join policy' now =>
    obtain ⟨rfl, hover⟩ := ht
    exact ⟨c.sweeps.length, (h.join hover now).unseen_of_other (by simp) (by simp)⟩
  | setClock | create | dispatch | cancel | cancelAll =>
    have hspared := h.spared ht (turn_sweeps c rfl (by simp))
    exact ⟨k, hspared.unseen_of_other (by simp) (by simp)⟩

theorem Account.deed (h : Account policy id base c k failed told) {d : Deed}
    (hd : c.InOrder policy id d) :
    ∃ k', Account policy id base (c.deed d) k' (failed ++ c.failedSweeps [d] id)
      (told ++ c.tellingSweeps [d] id) := by
  cases d with
  | turn t => exact h.turn hd
  | errand e =>
    have hspared := h.spared hd (errand_sweeps c e)
    exact ⟨k, hspared.unseen_of_other (by simp) (by simp)⟩

theorem Account.doing (h : Account policy id base c k failed told) {ds : List Deed}
    (hds : c.Orderly policy id ds) :
    ∃ k', Account policy id base (c.doing ds) k' (failed ++ c.failedSweeps ds id)
      (told ++ c.tellingSweeps ds id) := by
  induction ds generalizing c k failed told with
  | nil =>
    have hfailed : c.failedSweeps [] id = [] := rfl
    have htold : c.tellingSweeps [] id = [] := rfl
    rw [hfailed, htold, List.append_nil, List.append_nil]
    exact ⟨k, h⟩
  | cons d ds ih =>
    obtain ⟨k₁, h₁⟩ := h.deed hds.1
    obtain ⟨k', h'⟩ := ih h₁ hds.2
    rw [List.append_assoc, List.append_assoc, ← failedSweeps_cons, ← tellingSweeps_cons] at h'
    exact ⟨k', h'⟩

theorem orderly_append {ds es : List Deed} (h : c.Orderly policy id (ds ++ es)) :
    c.Orderly policy id ds := by
  induction ds generalizing c with
  | nil => trivial
  | cons d ds ih => exact ⟨h.1, ih h.2⟩

/-- A call that delivers the message is made while it may be tried once more. -/
theorem Account.lt_of_call (h : Account policy id base c k failed told) {t : Turn} {call : Call}
    (hcall : c.call? t = some call) (hid : call.id = id) :
    ∃ r, c.store.find? id = some r ∧ r.attempts < policy.retryLimit := by
  obtain ⟨-, s, p, recipient, rest, receipts, hs, hact, hp, -⟩ := call?_eq_some hcall
  have hholding : s.activity.holding? = some id := by
    rw [hact, ← hid, hp]
    rfl
  -- Only the sweep of the account can be at work on the message.
  by_cases hk : call.sweep = k
  · have hstanding := h.standing
    rw [← hk, hs] at hstanding
    apply hstanding.lt_of_holding hholding
    rw [hact]
    intro h
    cases h
  · exact absurd hholding (h.others _ s hs hk).not_holding

end account

/-! ## The beginning -/

/-- Sweeps deal only with messages whose numbers were given. -/
structure Aware (c : Crew) : Prop where
  bounded : c.Bounded
  failing : ∀ (i : Nat) (s : Sweep) (id : Int), c.sweeps[i]? = some s →
    s.activity.fails? = some id → id ≤ c.store.lastId

section aware
variable {c : Crew}

theorem IsFresh.aware (hc : c.IsFresh) : c.Aware where
  bounded := hc.bounded
  failing i s id hs := by simp [hc.noSweeps] at hs

theorem Aware.turn (h : c.Aware) (t : Turn) : (c.turn t).Aware := by
  refine ⟨h.bounded.turn t, fun i s' id hs' hfails => ?_⟩
  have hstep := turn_step h.bounded.wellNumbered t
  have hle := hstep.lastId_le
  cases hstep.sweep hs' with
  | kept hs => exact Int.le_trans (h.failing i s' id hs hfails) hle
  | joined policy now _ _ hlist =>
    rw [hlist, Sweep.list_fails] at hfails
    cases hfails
  | advanced _ hs hsweep =>
    rcases hsweep.fails hfails with hholding | hfails
    · exact Int.le_trans (h.bounded.holding i _ id hs hholding) hle
    · exact Int.le_trans (h.failing i _ id hs hfails) hle
  | answered answer _ hs hs' =>
    subst hs'
    rcases Sweep.answered_fails hfails with hholding | hfails
    · exact Int.le_trans (h.bounded.holding i _ id hs hholding) hle
    · exact Int.le_trans (h.failing i _ id hs hfails) hle

theorem Aware.errand (h : c.Aware) (e : Errand) : (c.errand e).Aware := by
  have hupkeep := errand_upkeep h.bounded.wellNumbered e
  have hsweeps := errand_sweeps c e
  constructor
  · constructor
    · exact hupkeep.wellNumbered
    · rw [hsweeps, hupkeep.lastId]
      exact h.bounded.due
    · rw [hsweeps, hupkeep.lastId]
      exact h.bounded.holding
  · rw [hsweeps, hupkeep.lastId]
    exact h.failing

theorem Aware.doing (h : c.Aware) (ds : List Deed) : (c.doing ds).Aware := by
  induction ds generalizing c with
  | nil => exact h
  | cons d ds ih =>
    cases d with
    | turn t => exact ih (h.turn t)
    | errand e => exact ih (h.errand e)

/-- No sweep is at work on a message whose number was not given yet. -/
theorem Aware.passive (h : c.Aware) {id : Int} (hid : c.store.lastId < id) {i : Nat} {s : Sweep}
    (hs : c.sweeps[i]? = some s) : s.Passive id := by
  right
  refine ⟨fun hmem => ?_, fun hholding => ?_, fun hfails => ?_⟩
  · obtain ⟨p, hp, rfl⟩ := List.mem_map.mp hmem
    have hle := h.bounded.due i s hs p hp
    omega
  · have hle := h.bounded.holding i s id hs hholding
    omega
  · have hle := h.failing i s id hs hfails
    omega

end aware

/-- A message that was stored just now did not fail yet. -/
theorem account_create {c : Crew} (hc : c.Aware) {draft : Draft} {automationId : Option Int} {id : Int}
    {st : Store} {t : Turn} (hautomation : draft.automationId = .ofOptionInt automationId)
    (hcreate : Store.create c.desk.now draft c.store = .ok (id, st)) (hturn : (c.turn t).store = st)
    {policy : Policy} (hlimit : 1 ≤ policy.retryLimit) :
    Account policy id ((c.turn t).store.failures id) (c.turn t) 0 [] [] := by
  have hwell := hc.bounded.wellNumbered
  obtain ⟨row, rfl, rfl, hid, htidy, hattempts⟩ := Store.create_tidy hautomation hcreate
  have hstep := turn_step hwell t
  have hlast : (c.turn t).store.lastId ≠ c.store.lastId := by
    rw [hturn, Store.insertLast]
    dsimp only
    omega
  have hsweeps := hstep.sweeps_eq hlast
  have hpassive (j : Nat) (s : Sweep) (hs : (c.turn t).sweeps[j]? = some s) : s.Passive row.id := by
    rw [hsweeps] at hs
    exact hc.passive (by omega) hs
  refine ⟨hstep.wellNumbered hwell, by simp, fun j s hs _ => hpassive j s hs, ?_⟩
  refine .settled (fun s hs => hpassive 0 s hs) ⟨.nil, ?_, ?_, ?_⟩ fun r hr => ?_
  · rw [List.length_nil]
    omega
  · simp [Policy.severities]
  · simp [Policy.tellers]
  · rw [hturn, Store.find?_insertLast hwell (by omega), if_pos rfl] at hr
    cases hr
    exact ⟨htidy, hattempts⟩

theorem title_of_tell {c : Crew} (hc : c.store.WellNumbered) {ds : List Deed}
    {told : Nat × Int × Payload} (h : told ∈ c.watch tell? ds) :
    told.2.2.title = .text "Delivery failed" := by
  induction ds generalizing c with
  | nil => cases h
  | cons d ds ih =>
    rw [watch_cons, List.mem_append] at h
    rcases h with h | h
    · cases d with
      | errand => cases h
      | turn t =>
        rw [watch, watch, List.append_nil] at h
        obtain ⟨-, s, -, hs⟩ := seeAdvance_eq_some.mp (Option.mem_toList.mp h)
        exact (Sweep.reporting_of_tell? hc hs).2
    · exact ih (deed_wellNumbered hc d) h

/-- A row counts the sweeps in which its message failed, at most as many as the policy allows, and the
message is sent only while it has failures left. Each failure is told in the audit log, the last one
that is allowed as critical; and the operator, if there is one, is told of that one alone. -/
theorem retries_are_bounded (c : Crew) (hc : c.IsFresh) (before after : List Deed) (t₀ : Turn)
    (draft : Draft) (automationId : Option Int) (id : Int) (st : Store)
    (hautomation : draft.automationId = .ofOptionInt automationId)
    (hcreate : Store.create (c.doing before).desk.now draft (c.doing before).store = .ok (id, st))
    (hturn : ((c.doing before).turn t₀).store = st) (policy : Policy) (hlimit : 1 ≤ policy.retryLimit)
    (c₀ c₁ : Crew) (hc₀ : c₀ = (c.doing before).turn t₀) (horderly : c₀.Orderly policy id after)
    (hc₁ : c₁ = c₀.doing after) :
    ((c₀.failedSweeps after id).Nodup ∧
      ((c₀.failedSweeps after id).length : Int) ≤ policy.retryLimit) ∧
    (∀ r, c₁.store.find? id = some r → r.attempts ≤ policy.retryLimit) ∧
    (∀ us t vs call, after = us ++ .turn t :: vs → (c₀.doing us).call? t = some call →
      call.id = id → ∃ r, (c₀.doing us).store.find? id = some r ∧ r.attempts < policy.retryLimit) ∧
    ((∀ s ∈ c₁.sweeps, s.activity.fails? ≠ some id) →
      (∀ r, c₁.store.find? id = some r → r.attempts = (c₀.failedSweeps after id).length) ∧
      c₁.store.failures id =
        c₀.store.failures id ++ policy.severities (c₀.failedSweeps after id).length ∧
      c₀.tellingSweeps after id = policy.tellers (c₀.failedSweeps after id)) ∧
    ∀ told ∈ c₀.watch tell? after, told.2.2.title = .text "Delivery failed" := by
  subst hc₀ hc₁
  have hstart := account_create (hc.aware.doing before) hautomation hcreate hturn hlimit
  obtain ⟨k, hend⟩ := hstart.doing horderly
  rw [List.nil_append, List.nil_append] at hend
  refine ⟨hend.standing.failed_bounded, fun r hr => hend.standing.bounded hr, ?_, ?_, ?_⟩
  · rintro us t vs call rfl hcall hid
    obtain ⟨_, hthen⟩ := hstart.doing (orderly_append horderly)
    exact hthen.lt_of_call hcall hid
  · intro hquiet
    obtain ⟨hsettled, hrow⟩ := hend.standing.settled_of_not_failing fun s hs =>
      hquiet s (List.mem_of_getElem? hs)
    exact ⟨fun r hr => (hrow r hr).2, hsettled.failures, hsettled.told⟩
  · intro told htold
    exact title_of_tell hstart.wellNumbered htold

/-! ## A message that fails twice -/

/-- Two tries, no lease, and an operator. -/
def twice : Policy :=
  ⟨2, .none, some 42, 15⟩

def stored : Crew :=
  (idle noon).turn (.create reminder)

def down : Except Failure String :=
  .error (.collaborator .runtime [.text "down"])

/-- Two sweeps fail to deliver the reminder, and the second one tells the operator. Meanwhile somebody
acts on another message. -/
def failedTwice : List Deed :=
  [.turn (.setClock oneOClock), .errand (.release 2 "gone"), .turn (.join twice (.ofInstant oneOClock)),
    .turn (.advance 0), .turn (.answer 0 down), .turn (.advance 0), .turn (.advance 0),
    .turn (.advance 0), .turn (.join twice (.ofInstant oneOClock)), .turn (.advance 1),
    .turn (.answer 1 down), .turn (.advance 1), .turn (.advance 1), .turn (.answer 1 (.ok "receipt")),
    .turn (.advance 1)]

theorem orderly_failedTwice : stored.Orderly twice 1 failedTwice := by
  have hstored : stored.store.WellNumbered :=
    deed_wellNumbered (isFresh_idle noon).wellNumbered (.turn (.create reminder))
  refine ⟨⟨rfl, rfl⟩, ?_, ⟨rfl, ?_⟩, trivial, trivial, trivial, trivial, trivial, ⟨rfl, ?_⟩,
    trivial, trivial, trivial, trivial, trivial, trivial, trivial⟩
  · exact spares_errand (deed_wellNumbered hstored _) rfl (by decide)
  · decide +kernel
  · decide +kernel

theorem retries_are_bounded_reminder :
    (∃ r, (stored.doing failedTwice).store.find? 1 = some r ∧ r.attempts = 2) ∧
      (stored.doing failedTwice).store.failures 1 = [some "alerta", some "critico"] ∧
      stored.tellingSweeps failedTwice 1 = [1] := by
  obtain ⟨-, -, -, hquiet, -⟩ := retries_are_bounded (idle noon) (isFresh_idle noon) [] failedTwice
    (.create reminder) reminder none 1 stored.store rfl (by rfl) rfl twice (by decide) stored _ rfl
    orderly_failedTwice rfl
  have hfailed : stored.failedSweeps failedTwice 1 = [0, 1] := by decide +kernel
  have hover : ∀ s ∈ (stored.doing failedTwice).sweeps, s.activity.fails? ≠ some 1 := by
    decide +kernel
  obtain ⟨hattempts, hfailures, htold⟩ := hquiet hover
  rw [hfailed] at hattempts hfailures htold
  have hstays : ((stored.doing failedTwice).store.find? 1).isSome = true := by decide +kernel
  obtain ⟨r, hr⟩ := Option.isSome_iff_exists.mp hstays
  exact ⟨⟨r, hr, hattempts r hr⟩, hfailures, htold⟩

end Crew

end Courier.Outbox
