import Courier.Proofs.Outbox.Failures
import Courier.Proofs.Outbox.Treatment

/-!
# What is counted of the failures of a message

Rows whose failures can be counted and recorded, what a policy has recorded and told of so many
failures, and the sweeps that will neither send a message again nor count a failure of it.
-/

namespace Courier.Outbox

open Message (Payload)

/-! ## Rows and messages that can be read -/

/-- The automation is one that a column holds. -/
def Pending.Fits (p : Pending) : Prop :=
  ∀ n, p.automationId = some n → Cell.isWord n = true

/-- The row can be read, and what is read of it can be recorded. -/
structure Row.Tidy (r : Row) : Prop where
  notes : ∃ delivered, r.Notes delivered
  automation : r.automationId = .null ∨ ∃ n, r.automationId = .int n ∧ Cell.isWord n = true

namespace Row
variable {r : Row}

theorem Tidy.of_eq {r' : Row} (h : r.Tidy) (hdelivered : r'.deliveredJson = r.deliveredJson)
    (hautomation : r'.automationId = r.automationId) : r'.Tidy := by
  obtain ⟨delivered, hnotes⟩ := h.notes
  refine ⟨⟨delivered, ?_⟩, hautomation ▸ h.automation⟩
  rwa [Notes, hdelivered]

theorem Tidy.noted (h : r.Tidy) {delivered : List String} (hnotes : r.Notes delivered)
    (recipient : String) : (r.noted delivered recipient).Tidy := by
  refine ⟨⟨_, notes_noted hnotes recipient⟩, ?_⟩
  rw [automationId_noted]
  exact h.automation

theorem Tidy.fits {p : Pending} (h : r.Tidy) (hp : r.pending = .ok p) : p.Fits := by
  intro n hn
  simp only [pending, bind_eq_ok] at hp
  obtain ⟨automationId, hautomation, _, -, _, -, hp⟩ := hp
  cases hp
  rcases h.automation with hnull | ⟨m, hint, hm⟩
  · rw [hnull] at hautomation
    cases hautomation
    cases hn
  · rw [hint] at hautomation
    cases hautomation
    cases hn
    exact hm

end Row

theorem Row.Holds.tidy {r : Row} {draft : Draft} {t : Calendar.Instant} {items : List Value}
    (h : r.Holds draft t items) {automationId : Option Int}
    (hautomation : draft.automationId = .ofOptionInt automationId) : r.Tidy := by
  refine ⟨⟨[], h.notes⟩, ?_⟩
  rcases h.automation hautomation with ⟨-, hnull⟩ | ⟨n, -, hint, hword⟩
  · exact Or.inl hnull
  · exact Or.inr ⟨n, hint, hword⟩

/-- The row of the message tells that it failed so often. -/
def Store.Counts (st : Store) (id : Int) (n : Nat) : Prop :=
  ∃ r, st.find? id = some r ∧ r.Tidy ∧ r.attempts = n

/-- The row of a message that was stored just now. -/
theorem Store.create_tidy {st st' : Store} {now : Calendar.Instant} {draft : Draft}
    {automationId : Option Int} {id : Int} (hautomation : draft.automationId = .ofOptionInt automationId)
    (h : create now draft st = .ok (id, st')) :
    ∃ row, st' = st.insertLast row ∧ row.id = id ∧ id = st.lastId + 1 ∧ row.Tidy ∧ row.attempts = 0 := by
  obtain ⟨_, items, row, -, -, hrow, hst', hid, hnew, -⟩ := create_row h
  exact ⟨row, hst', hid, hnew, hrow.tidy hautomation, hrow.attempts⟩

/-! ## What a policy asks for -/

namespace Policy

/-- The severities of the first failures of a message: the last one that is allowed is critical. -/
def severities (policy : Policy) (n : Nat) : List (Option String) :=
  (List.range n).map fun k : Nat =>
    some (if (k : Int) + 1 = policy.retryLimit then "critico" else "alerta")

/-- Of the sweeps in which a message failed those that tell the operator: the one of the last
failure that is allowed. -/
def tellers (policy : Policy) (failed : List Nat) : List Nat :=
  if policy.operatorChat.isSome then failed.drop (policy.retryLimit - 1).toNat else []

theorem severities_succ {policy : Policy} {n : Nat} (h : (n : Int) < policy.retryLimit) :
    policy.severities (n + 1) =
      policy.severities n ++ [some (Sweep.severity (policy.retryLimit ≤ (n : Int) + 1))] := by
  have hlast : Sweep.severity (policy.retryLimit ≤ (n : Int) + 1) =
      if (n : Int) + 1 = policy.retryLimit then "critico" else "alerta" := by
    unfold Sweep.severity
    by_cases he : (n : Int) + 1 = policy.retryLimit
    · simp [he]
    · have hnot : ¬ policy.retryLimit ≤ (n : Int) + 1 := by omega
      simp [he, hnot]
  rw [hlast]
  simp [severities, List.range_succ]

theorem tellers_of_lt {policy : Policy} {failed : List Nat}
    (h : (failed.length : Int) < policy.retryLimit) : policy.tellers failed = [] := by
  unfold tellers
  split
  · rw [List.drop_eq_nil_iff]
    omega
  · rfl

theorem tellers_concat {policy : Policy} {failed : List Nat}
    (h : (failed.length : Int) < policy.retryLimit) (k : Nat) :
    policy.tellers (failed ++ [k]) =
      if Sweep.alerts policy ((failed.length : Int) + 1) then [k] else [] := by
  unfold tellers Sweep.alerts
  by_cases hchat : policy.operatorChat.isSome
  · by_cases hlast : policy.retryLimit ≤ (failed.length : Int) + 1
    · have hdrop : (policy.retryLimit - 1).toNat = failed.length := by omega
      simp [hchat, hlast, hdrop]
    · have hdrop : (failed ++ [k]).drop (policy.retryLimit - 1).toNat = [] := by
        rw [List.drop_eq_nil_iff, List.length_append, List.length_singleton]
        omega
      rw [if_pos hchat, hdrop]
      simp [hlast]
  · simp [hchat]

end Policy

namespace Activity

/-- The message whose failure is about to be counted or recorded. -/
def fails? : Activity → Option Int
  | releasing p _ | reporting p _ _ => some p.id
  | _ => none

theorem fails?_toNext (p : Pending) (receipts rest : List String) :
    (toNext p receipts rest).fails? = none := by
  cases rest <;> rfl

end Activity

namespace Sweep

/-! ## Sweeps that leave a message alone -/

/-- The sweep will do nothing more to the message. -/
def Passive (id : Int) (s : Sweep) : Prop :=
  (∃ f, s.activity = .ended f) ∨
    (id ∉ s.due.map (·.id) ∧ s.activity.holding? ≠ some id ∧ s.activity.fails? ≠ some id)

/-- The message and the call, if the sweep tells the operator of a message. -/
def telling? (s : Sweep) : Option (Int × Payload) :=
  match s.activity with
  | .alerting p _ _ => s.request?.map fun payload => (p.id, payload)
  | _ => none

/-- The message and the call, if the next operation makes the sweep tell the operator. -/
def tell? (s : Sweep) (d : Desk) : Option (Int × Payload) :=
  if s.isBusy then (s.advance d).2.telling? else none

/-- The message that a call fails to deliver, if the answer says so. -/
def failing? (s : Sweep) (answer : Except Failure String) : Option Int :=
  match s.activity, answer with
  | .sending p _ _ _, .error f => if f.isCancellation then none else some p.id
  | _, _ => none

variable {s s' : Sweep} {d : Desk} {st' : Store} {id : Int}

theorem Step.reporting_of_alerting (h : s.Step d s' st') (hbusy : s.isBusy = true) {p : Pending}
    {attempts : Int} {cause : Failure} (hact : s'.activity = .alerting p attempts cause) :
    s.activity = .reporting p attempts cause := by
  have hnext (q : Pending) (receipts rest : List String) :
      Activity.toNext q receipts rest ≠ .alerting p attempts cause := by
    cases rest
    · intro h
      cases h
    · intro h
      cases h
  cases h with
  | still hwaits =>
    rw [hbusy] at hwaits
    cases hwaits
  | claimed | noted | absent => exact absurd hact (hnext _ _ _)
  | reported hact' _ hnext =>
    rcases hnext with rfl | rfl
    · cases hact
      exact hact'
    · cases hact
  | finished | passed | stuck | unnoted | completed | confirmed | released | returned => cases hact

/-- The operator is told of a message whose failure was recorded. -/
theorem reporting_of_tell? (hst : d.store.WellNumbered) {payload : Payload}
    (h : s.tell? d = some (id, payload)) :
    (∃ p attempts cause, s.activity = .reporting p attempts cause ∧ p.id = id) ∧
      payload.title = .text "Delivery failed" := by
  unfold tell? at h
  split at h
  · rename_i hbusy
    unfold telling? at h
    split at h
    · rename_i p attempts cause hact
      obtain ⟨_, hrequest, he⟩ := Option.map_eq_some_iff.mp h
      cases he
      refine ⟨⟨p, attempts, cause, (advance_step hst).reporting_of_alerting hbusy hact, rfl⟩, ?_⟩
      rw [request?, hact] at hrequest
      obtain ⟨chat, -, rfl⟩ := Option.map_eq_some_iff.mp hrequest
      rfl
    · cases h
  · cases h

theorem holding_of_failing? {answer : Except Failure String} (h : s.failing? answer = some id) :
    s.activity.holding? = some id := by
  unfold failing? at h
  split at h
  · rename_i hact
    split at h
    · cases h
    · rw [hact]
      exact h
  · cases h

theorem not_claims_of_not_due (hdue : id ∉ s.due.map (·.id)) : s.claims? d ≠ some id := by
  intro hclaims
  unfold claims? at hclaims
  split at hclaims
  · rename_i p due hact hs
    split at hclaims
    · cases hclaims
      exact hdue (by simp [hs])
    · cases hclaims
  · cases hclaims

/-- A failure is counted or recorded of a message that the sweep was at work on. -/
theorem Step.fails (h : s.Step d s' st') (hfails : s'.activity.fails? = some id) :
    s.activity.holding? = some id ∨ s.activity.fails? = some id := by
  cases h with
  | still => exact Or.inr hfails
  | claimed => rw [Activity.fails?_toNext] at hfails; cases hfails
  | noted | absent => rw [turnTo, Activity.fails?_toNext] at hfails; cases hfails
  | unnoted _ hact => exact Or.inl (by rw [hact]; exact hfails)
  | released _ hact => exact Or.inr (by rw [hact]; exact hfails)
  | finished | passed | stuck | completed | confirmed | returned => cases hfails
  | reported _ _ hnext => rcases hnext with rfl | rfl <;> cases hfails

section leaves
variable (hholding : s.activity.holding? ≠ some id)
include hholding

theorem Step.not_holding (h : s.Step d s' st') (hclaims : s.claims? d ≠ some id) :
    s'.activity.holding? ≠ some id := by
  intro hholding'
  rcases h.holding hholding' with hclaims' | ⟨hholding', -⟩
  · exact hclaims hclaims'
  · exact hholding hholding'

theorem Step.not_fails (h : s.Step d s' st') (hfails : s.activity.fails? ≠ some id) :
    s'.activity.fails? ≠ some id := by
  intro hfails'
  rcases h.fails hfails' with hholding' | hfails'
  · exact hholding hholding'
  · exact hfails hfails'

end leaves

theorem Passive.step (h : s.Passive id) (hstep : s.Step d s' st') (hst : d.store.WellNumbered) :
    s'.Passive id ∧ st'.find? id = d.store.find? id := by
  rcases h with ⟨f, hact⟩ | ⟨hdue, hholding, hfails⟩
  · obtain ⟨rfl, rfl⟩ := hstep.of_not_busy (by rw [isBusy, hact])
    exact ⟨Or.inl ⟨f, hact⟩, rfl⟩
  · have hclaims : s.claims? d ≠ some id := not_claims_of_not_due hdue
    refine ⟨Or.inr ⟨?_, hstep.not_holding hholding hclaims, hstep.not_fails hholding hfails⟩,
      (hstep.touch hst id).eq_of_not_holding hholding hclaims⟩
    intro hmem
    exact hdue ((hstep.due_suffix.sublist.map _).subset hmem)

theorem answered_fails {answer : Except Failure String}
    (h : (s.answered answer d).2.activity.fails? = some id) :
    s.activity.holding? = some id ∨ s.activity.fails? = some id := by
  unfold answered at h
  split at h
  · cases h
  · rename_i hact
    left
    rw [hact]
    dsimp only [turnTo] at h
    split at h
    · cases h
    · exact h
  · cases h
  · split at h
    · cases h
    · cases h
  · exact Or.inr h

theorem answered_not_fails (answer : Except Failure String) (d : Desk)
    (hholding : s.activity.holding? ≠ some id) (hfails : s.activity.fails? ≠ some id) :
    (s.answered answer d).2.activity.fails? ≠ some id := by
  intro hfails'
  rcases answered_fails hfails' with hholding' | hfails'
  · exact hholding hholding'
  · exact hfails hfails'

theorem Passive.answered (h : s.Passive id) (answer : Except Failure String) (d : Desk) :
    (s.answered answer d).2.Passive id := by
  rcases h with ⟨f, hact⟩ | ⟨hdue, hholding, hfails⟩
  · left
    exact ⟨f, by simp [Sweep.answered, hact]⟩
  · right
    rw [answered_due]
    refine ⟨hdue, ?_, answered_not_fails answer d hholding hfails⟩
    intro hholding'
    exact hholding (answered_holding hholding')

theorem list_fails (policy : Policy) (now : Calendar.Moment) (d : Desk) :
    (list policy now d).activity.fails? = none := by
  unfold list
  split
  · rfl
  · rfl

/-- If any message is due, the limit of the policy is one that the store takes. -/
theorem list_of_mem_due {policy : Policy} {now : Calendar.Moment} {p : Pending}
    (h : p ∈ (list policy now d).due) :
    (list policy now d).activity = .taking ∧ Cell.isWord policy.retryLimit = true := by
  unfold list at h ⊢
  split at h
  · cases h
  · rename_i due hdue
    refine ⟨rfl, ?_⟩
    simp only [Store.listDue, bind_eq_ok, Store.checkWord] at hdue
    obtain ⟨_, -, _, -, _, -, _, hword, -⟩ := hdue
    split at hword
    · assumption
    · cases hword

theorem Passive.not_holding (h : s.Passive id) : s.activity.holding? ≠ some id := by
  rcases h with ⟨f, hended⟩ | ⟨-, hholding, -⟩
  · rw [hended]
    intro h
    cases h
  · exact hholding

theorem Passive.not_fails (h : s.Passive id) : s.activity.fails? ≠ some id := by
  rcases h with ⟨f, hended⟩ | ⟨-, -, hfails⟩
  · rw [hended]
    intro h
    cases h
  · exact hfails

end Sweep

end Courier.Outbox
