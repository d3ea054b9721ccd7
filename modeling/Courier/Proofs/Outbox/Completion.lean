import Courier.Proofs.Crew.Punctuality
import Courier.Proofs.Outbox.Interruptions
import Courier.Proofs.Outbox.LeaseWindow
import Courier.Proofs.Outbox.Legible

/-!
# Sweeps that come to their end

While its calls are not cancelled, no failure ends a sweep whose messages can be claimed and recorded
(`Sweep.Sound`). Every operation and every answer brings it nearer to its end: `Sweep.load` bounds what
is left.
-/

namespace Courier.Outbox

open Calendar (Instant)

/-- With a later clock the instant that lies the lease before it is later as well. -/
theorem Lease.Fits.mono {lease : Lease} {t u : Instant} (h : lease.Fits t) (hle : t ≤ u) :
    lease.Fits u := by
  intro hon
  obtain ⟨cutoff, hcutoff⟩ := Option.isSome_iff_exists.mp (h hon)
  rw [cutoff?, if_neg (by simp [hon])] at hcutoff ⊢
  cases hspan : lease.span with
  | error f => simp [hspan] at hcutoff
  | ok span =>
    rw [hspan] at hcutoff
    have hmicros := micros_of_add? hcutoff
    have hnonneg := span_nonneg hon hspan
    have hu := u.inRange
    have hle' : t.micros ≤ u.micros := hle
    simp only [Instant.add?, Instant.ofMicros?]
    rw [dif_pos (by omega), if_neg (by omega)]
    rfl

namespace Sweep

/-! ## Sweeps that no failure ends -/

/-- The messages of the sweep can be claimed and recorded; no failure ended it, and none of its calls
was cancelled. -/
structure Sound (s : Sweep) : Prop where
  due : ∀ p ∈ s.due, p.Ready
  pending : ∀ p, s.activity.pending? = some p → p.Ready
  intact : ∀ f, s.activity ≠ .ended (some f)
  kept : ∀ p f, s.activity ≠ .returning p f
  heard : ∀ p attempts cause, s.activity = .alerting p attempts cause →
    s.policy.operatorChat.isSome = true

section sound
variable {s : Sweep} {d : Desk}

theorem perform_of_ok {α : Type} {operation : Operation α} {a : α} {st : Store}
    {next : α → Desk → Desk × Sweep} (hok : operation d.store = .ok (a, st)) :
    s.perform operation d next = next a { d with store := st } := by
  rcases perform_cases operation s d next with ⟨a', st', hok', he⟩ | ⟨f, hf, -⟩
  · cases hok.symm.trans hok'
    exact he
  · cases hok.symm.trans hf

theorem Sound.admits (h : s.Sound) (hopen : d.store.closed = false) {p : Pending}
    (hp : s.activity.pending? = some p) : d.store.Admits p.id :=
  ⟨hopen, (h.pending p hp).isWord⟩

variable (hst : d.store.WellNumbered) (hopen : d.store.closed = false)
  (hfits : s.policy.lease.Fits d.now) (h : s.Sound)
include hst h

/-- Only if there is an operator the sweep is going to tell one. -/
theorem Sound.heard_advance {p : Pending} {attempts : Int} {cause : Failure}
    (hact : (s.advance d).2.activity = .alerting p attempts cause) :
    s.policy.operatorChat.isSome = true := by
  have hstep := advance_step (s := s) hst
  cases hbusy : s.isBusy with
  | false =>
    rw [(hstep.of_not_busy hbusy).1] at hact
    exact h.heard p attempts cause hact
  | true =>
    rcases advance_reporting (d := d) (hstep.reporting_of_alerting hbusy hact) with
      ⟨-, hs'⟩ | ⟨f, -, he⟩
    · rw [hs'] at hact
      dsimp only [turnTo] at hact
      split at hact
      · rename_i halerts
        exact (Bool.and_eq_true _ _ ▸ halerts).2
      · cases hact
    · rw [he] at hact
      cases hact

include hopen hfits

theorem Sound.take_intact (f : Failure) : (s.take d).2.activity ≠ .ended (some f) := by
  unfold take
  split
  · simp [turnTo]
  · rename_i p due hdue
    have hadmits : d.store.Admits p.id := ⟨hopen, (h.due p (by simp [hdue])).isWord⟩
    have hmoment := Calendar.Moment.utc?_ofInstant d.now
    have hclaim := Store.claim_eq hst hmoment (staleCutoff_eq hmoment hfits) hadmits
    rw [Desk.moment, perform_of_ok hclaim]
    split
    · cases p.remaining <;> simp [Activity.toNext]
    · simp

/-- No failure ends the sweep with its next operation. -/
theorem Sound.advance_intact (f : Failure) : (s.advance d).2.activity ≠ .ended (some f) := by
  have hready (p : Pending) (hp : s.activity.pending? = some p) := h.pending p hp
  have hadmits (p : Pending) (hp : s.activity.pending? = some p) := h.admits hopen hp
  unfold advance
  split
  · exact Sound.take_intact hst hopen hfits h f
  · rename_i p recipient rest receipts _
    unfold note
    split
    · simp [turnTo]
    · cases rest <;> simp [turnTo, Activity.toNext]
  · rename_i p receipts hact
    rw [complete, perform_of_ok (Store.complete_of_admits (hadmits p (by rw [hact]; rfl)))]
    simp [turnTo]
  · rename_i p receipts hact
    obtain ⟨st, hrecord⟩ :=
      Store.record_sentEntry hopen (hready p (by rw [hact]; rfl)).fits d.now receipts
    rw [confirm, perform_of_ok hrecord]
    simp
  · rename_i p cause hact
    rw [release,
      perform_of_ok (Store.release_of_admits (hadmits p (by rw [hact]; rfl)) cause.message)]
    simp [turnTo]
  · rename_i p attempts cause hact
    obtain ⟨st, hrecord⟩ := Store.record_errorEntry hopen (hready p (by rw [hact]; rfl)).fits
      d.now (severity (s.policy.retryLimit ≤ attempts)) attempts cause
    rw [report, perform_of_ok hrecord]
    dsimp only [turnTo]
    split
    · simp
    · simp
  · rename_i p cause hact
    exact absurd hact (h.kept p cause)
  · exact h.intact f
  · exact h.intact f
  · exact h.intact f

theorem Sound.advance : (s.advance d).2.Sound where
  due p hp := h.due p ((advance_step hst).due_suffix.subset hp)
  pending p hp := by
    rcases pending?_step (advance_step hst) hp with hdue | hpending
    · exact h.due p hdue
    · exact h.pending p hpending
  intact := Sound.advance_intact hst hopen hfits h
  kept := (advance_step hst).not_returning
  heard p attempts cause hact := by
    rw [(advance_step hst).policy_eq]
    exact Sound.heard_advance hst h hact

end sound

/-- A sweep of a store with legible rows begins so. -/
theorem sound_list {d : Desk} (hopen : d.store.closed = false) (h : d.store.Legible) {policy : Policy}
    {now : Calendar.Moment} {t : Instant} (ht : now.utc? = some t) (hfits : policy.lease.Fits t)
    (hword : Cell.isWord policy.retryLimit = true) : (list policy now d).Sound := by
  have htaking : (list policy now d).activity = .taking := by
    obtain ⟨due, -, hlist⟩ := list_of_legible hopen h ht hfits hword
    rw [hlist]
  refine ⟨fun p hp => ready_of_listed hopen h ht hfits hword hp, fun p hp => ?_, ?_, ?_, ?_⟩
  · rw [htaking] at hp
    cases hp
  · simp [htaking]
  · simp [htaking]
  · simp [htaking]

theorem Sound.turnTo {s : Sweep} (h : s.Sound) {a : Activity}
    (hpending : ∀ p, a.pending? = some p → p.Ready)
    (ha : a = .taking ∨ (∃ p x rest receipts, a = .noting p x rest receipts) ∨
      ∃ p f, a = .releasing p f) :
    (s.turnTo a).Sound := by
  refine ⟨h.due, hpending, ?_, ?_, ?_⟩
  · rintro f hact
    rcases ha with rfl | ⟨_, _, _, _, rfl⟩ | ⟨_, _, rfl⟩ <;> cases hact
  · rintro p f hact
    rcases ha with rfl | ⟨_, _, _, _, rfl⟩ | ⟨_, _, rfl⟩ <;> cases hact
  · rintro p attempts cause hact
    rcases ha with rfl | ⟨_, _, _, _, rfl⟩ | ⟨_, _, rfl⟩ <;> cases hact

/-- Nor does an answer that does not cancel the call. -/
theorem Sound.answered {s : Sweep} (h : s.Sound) {answer : Except Failure String}
    (hanswer : ∀ f, answer = .error f → f.isCancellation = false) (d : Desk) :
    (s.answered answer d).2.Sound := by
  have hready := h.pending
  have hidle : (s.turnTo .taking).Sound := h.turnTo (fun p hp => by cases hp) (Or.inl rfl)
  unfold Sweep.answered
  split
  · rename_i p recipient rest receipts receipt hact
    rw [hact] at hready
    exact h.turnTo hready (Or.inr (Or.inl ⟨_, _, _, _, rfl⟩))
  · rename_i p recipient rest receipts f hact
    rw [hact] at hready
    rw [if_neg (by simp [hanswer f rfl])]
    exact h.turnTo hready (Or.inr (Or.inr ⟨_, _, rfl⟩))
  · exact hidle
  · rename_i p attempts cause f hact
    rw [if_neg (by simp [hanswer f rfl])]
    exact hidle
  · exact h

/-- A sweep that is not over and waits for nobody has an operation to perform. -/
theorem Sound.isBusy {s : Sweep} (h : s.Sound) (hlive : s.activity ≠ .ended none)
    (hrequest : s.request? = none) : s.isBusy = true := by
  cases hact : s.activity with
  | taking | noting | completing | confirming | releasing | reporting | returning =>
    rw [Sweep.isBusy, hact]
  | sending => simp [request?, hact] at hrequest
  | alerting p attempts cause =>
    have hheard := h.heard p attempts cause hact
    rw [request?, hact] at hrequest
    simp [Option.map_eq_none_iff.mp hrequest] at hheard
  | ended f =>
    cases f with
    | none => exact absurd hact hlive
    | some f => exact absurd hact (h.intact f)

/-! ## What is left -/

end Sweep

/-- A bound of the number of turns that a sweep makes until it takes the next message. -/
def Activity.load : Activity → Nat
  | .ended _ => 0
  | .taking | .returning .. => 1
  | .confirming .. | .alerting .. => 2
  | .completing .. | .reporting .. => 3
  | .releasing .. => 4
  | .noting _ _ rest _ => 2 * rest.length + 5
  | .sending _ _ rest _ => 2 * rest.length + 6

theorem Activity.load_toNext_le (p : Pending) (receipts rest : List String) :
    (toNext p receipts rest).load ≤ 2 * rest.length + 4 := by
  cases rest with
  | nil => exact Nat.le_succ 3
  | cons x rest =>
    simp only [toNext, load, List.length_cons]
    omega

namespace Sweep

/-- A bound of the number of turns that messages take, if each is claimed. -/
def dueLoad : List Pending → Nat
  | [] => 0
  | p :: due => 2 * p.remaining.length + 4 + dueLoad due

theorem dueLoad_append (due due' : List Pending) :
    dueLoad (due ++ due') = dueLoad due + dueLoad due' := by
  induction due with
  | nil => exact (Nat.zero_add _).symm
  | cons p due ih =>
    simp only [List.cons_append, dueLoad, ih]
    omega

/-- A bound of the number of turns that a sweep has left. -/
def load (s : Sweep) : Nat :=
  dueLoad s.due + s.activity.load

section load
variable {s s' : Sweep} {d : Desk} {st' : Store}

theorem load_pos (hbusy : s.isBusy = true) : 0 < s.activity.load := by
  cases hact : s.activity with
  | sending | alerting | ended => simp [isBusy, hact] at hbusy
  | taking | noting | completing | confirming | releasing | reporting | returning =>
    simp [Activity.load]

/-- Every operation brings a sweep nearer to its end. -/
theorem Step.load_lt (h : s.Step d s' st') (hbusy : s.isBusy = true) : s'.load < s.load := by
  have hpos := load_pos hbusy
  cases h with
  | still hwaits =>
    rw [hbusy] at hwaits
    cases hwaits
  | finished | returned => simpa [load, turnTo, stopWith, Activity.load] using hpos
  | passed hact hdue =>
    simp only [load, hact, hdue, dueLoad, Activity.load]
    omega
  | @claimed p _ _ _ _ hact hdue =>
    have htaking : s.activity.load = 1 := by rw [hact]; rfl
    have hnext := Activity.load_toNext_le p [] p.remaining
    simp only [load, hdue, dueLoad]
    omega
  | stuck f _ hdue =>
    obtain ⟨taken, hdue⟩ := hdue
    have hended : (Activity.ended (some f)).load = 0 := rfl
    simp only [load, stopWith, turnTo, ← hdue, dueLoad_append]
    omega
  | @noted p _ rest receipts _ _ hact | @absent p _ rest receipts hact =>
    have hnoting : s.activity.load = 2 * rest.length + 5 := by rw [hact]; rfl
    have hnext := Activity.load_toNext_le p receipts rest
    simp only [load, turnTo]
    omega
  | unnoted _ hact | completed hact | confirmed hact | released _ hact =>
    simp only [load, turnTo, hact, Activity.load]
    omega
  | reported hact _ hnext =>
    rcases hnext with rfl | rfl
    · simp [load, turnTo, hact, Activity.load]
    · simp [load, turnTo, hact, Activity.load]

/-- So does every answer to a call. -/
theorem load_answered_lt (hwaits : s.request?.isSome = true) (answer : Except Failure String)
    (d : Desk) : (s.answered answer d).2.load < s.load := by
  cases hact : s.activity with
  | sending p recipient rest receipts =>
    cases answer with
    | ok receipt =>
      rw [answered_ok hact]
      simp [load, turnTo, hact, Activity.load]
    | error f =>
      rw [answered_error hact]
      dsimp only [load, turnTo]
      rw [hact]
      split
      · simp only [Activity.load]
        omega
      · simp only [Activity.load]
        omega
  | alerting p attempts cause =>
    cases answer with
    | ok receipt => simp [answered, load, turnTo, hact, Activity.load]
    | error f =>
      simp only [answered, hact]
      split
      · simp [load, stopWith, turnTo, hact, Activity.load]
      · simp [load, turnTo, hact, Activity.load]
  | _ => simp [request?, hact] at hwaits

end load

end Sweep

end Courier.Outbox
