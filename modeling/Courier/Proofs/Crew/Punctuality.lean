import Courier.Proofs.Crew.Steps
import Courier.Proofs.Outbox.Selection
import Courier.Proofs.Outbox.Treatment
import Mathlib.Data.List.Induction

/-!
# Messages are not sent early

A sweep learns of messages only when it begins, and lists only those whose time has come. So while the
clock does not go back and sweeps go by it, no sweep is at work on a message before the instant that
the message is scheduled for.
-/

namespace Courier.Outbox

open Calendar (Instant)

/-! ## What a sweep knows of -/

namespace Sweep

/-- The sweep is going to take the message or is at work on it. -/
def Knows (id : Int) (s : Sweep) : Prop :=
  id ∈ s.due.map (·.id) ∨ ∃ p, s.activity.pending? = some p ∧ p.id = id

/-- The sweep waits for the answer to a call about the message. -/
def Calls (id : Int) (s : Sweep) : Prop :=
  s.request?.isSome = true ∧ ∃ p, s.activity.pending? = some p ∧ p.id = id

section knows
variable {s s' : Sweep} {d : Desk} {st' : Store} {id : Int}

theorem Calls.knows (h : s.Calls id) : s.Knows id :=
  Or.inr h.2

theorem knows_of_holding (h : s.activity.holding? = some id) : s.Knows id := by
  right
  cases hact : s.activity with
  | sending p | noting p | completing p | releasing p | returning p =>
    rw [hact] at h
    exact ⟨p, rfl, Option.some.inj h⟩
  | taking | confirming | reporting | alerting | ended =>
    rw [hact] at h
    cases h

theorem knows_of_claims (h : s.claims? d = some id) : s.Knows id := by
  left
  unfold claims? at h
  split at h
  · rename_i p due _ hdue
    split at h
    · cases h
      simp [hdue]
    · cases h
  · cases h

theorem pending?_step (h : s.Step d s' st') {p : Pending} (hp : s'.activity.pending? = some p) :
    p ∈ s.due ∨ s.activity.pending? = some p := by
  cases h with
  | still => exact Or.inr hp
  | claimed _ _ hdue =>
    rw [Activity.pending?_toNext] at hp
    cases hp
    exact Or.inl (by simp [hdue])
  | noted hact | absent hact =>
    rw [turnTo, Activity.pending?_toNext] at hp
    cases hp
    exact Or.inr (by rw [hact]; rfl)
  | unnoted _ hact | completed hact | released _ hact =>
    cases hp
    exact Or.inr (by rw [hact]; rfl)
  | reported hact _ hnext =>
    rcases hnext with rfl | rfl
    · cases hp
      exact Or.inr (by rw [hact]; rfl)
    · cases hp
  | finished | passed | stuck | confirmed | returned => cases hp

theorem Step.knows (h : s.Step d s' st') (hs' : s'.Knows id) : s.Knows id := by
  rcases hs' with hid | ⟨p, hp, rfl⟩
  · exact Or.inl ((h.due_suffix.sublist.map _).subset hid)
  · rcases pending?_step h hp with hdue | hp
    · exact Or.inl (List.mem_map_of_mem hdue)
    · exact Or.inr ⟨p, hp, rfl⟩

theorem pending?_answered {answer : Except Failure String} {p : Pending}
    (hp : (s.answered answer d).2.activity.pending? = some p) : s.activity.pending? = some p := by
  unfold answered at hp
  split at hp
  · rename_i hact
    rw [hact]
    exact hp
  · rename_i hact
    rw [hact]
    dsimp only [turnTo] at hp
    split at hp
    · exact hp
    · exact hp
  · cases hp
  · split at hp
    · cases hp
    · cases hp
  · exact hp

theorem answered_knows {answer : Except Failure String} (h : (s.answered answer d).2.Knows id) :
    s.Knows id := by
  rcases h with hid | ⟨p, hp, rfl⟩
  · rw [answered_due] at hid
    exact Or.inl hid
  · exact Or.inr ⟨p, pending?_answered hp, rfl⟩

theorem list_knows {policy : Policy} {now : Calendar.Moment} (h : (list policy now d).Knows id) :
    id ∈ (list policy now d).due.map (·.id) := by
  rcases h with hid | ⟨p, hp, -⟩
  · exact hid
  · unfold list at hp
    split at hp
    · cases hp
    · cases hp

/-- A message is listed only once its time has come. -/
theorem scheduledAt_le_of_listed (hst : d.store.WellNumbered) {policy : Policy}
    {now : Calendar.Moment} {t : Instant} (ht : now.utc? = some t)
    (h : id ∈ (list policy now d).due.map (·.id)) :
    ∃ r, d.store.find? id = some r ∧ r.scheduledAt ≤ t.text := by
  obtain ⟨p, hp, rfl⟩ := List.mem_map.mp h
  unfold list at hp
  split at hp
  · cases hp
  · rename_i due hlist
    simp only [Store.listDue, instantOf_eq ht, bind_eq_ok] at hlist
    obtain ⟨_, hnow, _, -, _, -, _, -, _, -, hlist⟩ := hlist
    cases hnow
    obtain ⟨r, hr, hpending⟩ := (Store.mapM_pending_ok hlist).2 p hp
    obtain ⟨hmem, hdue⟩ := Store.mem_dueRows hr
    simp only [Store.isDue, Bool.and_eq_true, decide_eq_true_eq] at hdue
    exact ⟨r, (Row.pending_ok hpending).1 ▸ Store.find?_of_mem hst hmem, hdue.1.2⟩

end knows

/-! ## Sweeps leave the clock alone -/

theorem perform_now {α : Type} (operation : Operation α) (s : Sweep) (d : Desk)
    {next : α → Desk → Desk × Sweep} (hnext : ∀ a d', (next a d').1.now = d'.now) :
    (s.perform operation d next).1.now = d.now := by
  rcases perform_cases operation s d next with ⟨a, st, -, he⟩ | ⟨f, -, he⟩
  · rw [he, hnext]
  · rw [he]

theorem advance_now (s : Sweep) (d : Desk) : (s.advance d).1.now = d.now := by
  unfold advance
  split
  · unfold take
    split
    · rfl
    · exact perform_now _ _ _ fun _ _ => rfl
  · unfold note Desk.perform
    split
    · rfl
    · rename_i hperform
      split at hperform
      · cases hperform
        rfl
      · cases hperform
  · exact perform_now _ _ _ fun _ _ => rfl
  · exact perform_now _ _ _ fun _ _ => rfl
  · exact perform_now _ _ _ fun _ _ => rfl
  · exact perform_now _ _ _ fun _ _ => rfl
  · exact perform_now _ _ _ fun _ _ => rfl
  · rfl
  · rfl
  · rfl

theorem answered_now (answer : Except Failure String) (s : Sweep) (d : Desk) :
    (s.answered answer d).1.now = d.now := by
  unfold answered
  split
  · rfl
  · rfl
  · rfl
  · split
    · rfl
    · rfl
  · rfl

end Sweep

namespace Crew

/-! ## Runs by the clock -/

/-- Every turn of a run has a property when its time comes. -/
def Throughout (P : Crew → Turn → Prop) : Crew → List Turn → Prop
  | _, [] => True
  | c, t :: ts => P c t ∧ Throughout P (c.turn t) ts

theorem throughout_append {P : Crew → Turn → Prop} {c : Crew} {ts us : List Turn} :
    c.Throughout P (ts ++ us) ↔ c.Throughout P ts ∧ (c.after ts).Throughout P us := by
  induction ts generalizing c with
  | nil => simp [Throughout]
  | cons t ts ih => simp only [List.cons_append, Throughout, ih, after_cons, and_assoc]

/-- An invariant of a run that a property of its turns keeps. -/
theorem Throughout.after {P : Crew → Turn → Prop} {I : Crew → Prop} {c : Crew} {ts : List Turn}
    (hts : c.Throughout P ts) (hturn : ∀ c t, I c → P c t → I (c.turn t)) (h : I c) :
    I (c.after ts) := by
  induction ts generalizing c with
  | nil => exact h
  | cons t ts ih => exact ih hts.2 (hturn c t h hts.1)

/-- The clock does not go back, and a sweep begins at the time that it shows. -/
def OnTime (c : Crew) : Turn → Prop
  | .setClock now => c.desk.now ≤ now
  | .join _ now => now = c.desk.moment
  | _ => True

def Knows (id : Int) (c : Crew) : Prop :=
  ∃ s ∈ c.sweeps, s.Knows id

def Calls (id : Int) (c : Crew) : Prop :=
  ∃ s ∈ c.sweeps, s.Calls id

section turns
variable {c : Crew} {id : Int} {t : Turn}

theorem Calls.knows (h : c.Calls id) : c.Knows id := by
  obtain ⟨s, hs, hcalls⟩ := h
  exact ⟨s, hs, hcalls.knows⟩

theorem now_turn (ht : ∀ now, t ≠ .setClock now) : (c.turn t).desk.now = c.desk.now := by
  have hperform {α : Type} (operation : Operation α) :
      (c.perform operation).desk.now = c.desk.now := by
    rcases perform_cases operation c with he | ⟨a, st, -, he⟩
    · rw [he]
    · rw [he]
  have hact (i : Nat) (action : Sweep → Desk → Desk × Sweep)
      (haction : ∀ s d, (action s d).1.now = d.now) : (c.act i action).desk.now = c.desk.now := by
    unfold act
    split
    · rfl
    · exact haction _ _
  cases t with
  | setClock now => exact absurd rfl (ht now)
  | create | cancel | cancelAll => exact hperform _
  | dispatch payload delay automationId =>
    rw [turn, dispatch]
    split
    · rename_i result d' hplan
      obtain ⟨-, draft, id, store, -, -, -, -, -, -, rfl⟩ := plan_stored hplan
      rfl
    · rfl
  | join => rfl
  | advance i => exact hact i _ Sweep.advance_now
  | answer i answer => exact hact i _ (Sweep.answered_now answer)

theorem OnTime.le_now (ht : c.OnTime t) : c.desk.now ≤ (c.turn t).desk.now := by
  cases t with
  | setClock now => exact ht
  | _ =>
    rw [now_turn (by simp)]
    exact Nat.le_refl _

/-- A sweep comes to know of a message only when it begins and lists it. -/
theorem knows_turn (hc : c.store.WellNumbered) (h : (c.turn t).Knows id) :
    c.Knows id ∨ ∃ policy now, t = .join policy now ∧
      id ∈ (Sweep.list policy now c.desk).due.map (·.id) := by
  obtain ⟨s', hs', hknows⟩ := h
  obtain ⟨k, hk⟩ := List.getElem?_of_mem hs'
  cases (turn_step hc t).sweep hk with
  | kept hs => exact Or.inl ⟨s', List.mem_of_getElem? hs, hknows⟩
  | joined policy now ht _ hlist =>
    subst hlist
    exact Or.inr ⟨policy, now, ht, Sweep.list_knows hknows⟩
  | advanced _ hs hstep => exact Or.inl ⟨_, List.mem_of_getElem? hs, hstep.knows hknows⟩
  | answered answer _ hs he =>
    subst he
    exact Or.inl ⟨_, List.mem_of_getElem? hs, Sweep.answered_knows hknows⟩

theorem knows_le_lastId (hc : c.IsFresh) (ts : List Turn) (h : (c.after ts).Knows id) :
    id ≤ (c.after ts).store.lastId := by
  induction ts using List.reverseRecOn with
  | nil =>
    obtain ⟨s, hs, -⟩ := h
    rw [after_nil, hc.noSweeps] at hs
    cases hs
  | append_singleton ts t ih =>
    have hwell := wellNumbered_after hc.wellNumbered ts
    have hstep := turn_step hwell t
    rw [after_append] at h ⊢
    rcases knows_turn hwell h with hknows | ⟨policy, now, -, hlisted⟩
    · exact Int.le_trans (ih hknows) hstep.lastId_le
    · obtain ⟨p, hp, rfl⟩ := List.mem_map.mp hlisted
      obtain ⟨r, hr, -⟩ := (Sweep.list_due hwell policy now).2 p hp
      exact Int.le_trans (Store.le_lastId_of_find? hwell hr) hstep.lastId_le

end turns

/-! ## Before the time of a message -/

/-- Whoever knows of the message learned of it at its time or later. -/
structure Punctual (id : Int) (t₀ : Instant) (c : Crew) : Prop where
  wellNumbered : c.store.WellNumbered
  given : id ≤ c.store.lastId
  scheduled : ∀ r, c.store.find? id = some r → r.scheduledAt = t₀.text
  knows : c.Knows id → t₀ ≤ c.desk.now

theorem scheduledAt_touch {s : Sweep} {d : Desk} {id : Int} {o o' : Option Row} {time : String}
    (h : s.Touch d id o o') (ho : ∀ r, o = some r → r.scheduledAt = time) (r' : Row)
    (hr' : o' = some r') : r'.scheduledAt = time := by
  cases h with
  | kept => exact ho r' hr'
  | claimed =>
    cases hr'
    have hr := ho _ rfl
    exact hr
  | noted =>
    cases hr'
    have hr := ho _ rfl
    unfold Row.noted
    split
    · exact hr
    · exact hr
  | completed => cases hr'
  | released | returned =>
    obtain ⟨r, hr, rfl⟩ := Option.map_eq_some_iff.mp hr'
    exact ho r hr

section punctual
variable {c : Crew} {id : Int} {t₀ : Instant} {t : Turn}

theorem Punctual.turn (h : c.Punctual id t₀) (ht : c.OnTime t) : (c.turn t).Punctual id t₀ := by
  have hc := h.wellNumbered
  have hstep := turn_step hc t
  refine ⟨hstep.wellNumbered hc, Int.le_trans h.given hstep.lastId_le, ?_, fun hknows => ?_⟩
  · intro r hr
    have hrow := hstep.row hc id
    rw [hr] at hrow
    have hscheduled := h.scheduled
    generalize c.store.find? id = o at hrow hscheduled
    cases hrow with
    | kept => exact hscheduled r rfl
    | stored _ _ hnew =>
      have := h.given
      omega
    | touched _ _ htouch => exact scheduledAt_touch htouch hscheduled r rfl
  · rcases knows_turn hc hknows with hknows | ⟨policy, now, rfl, hlisted⟩
    · exact Nat.le_trans (h.knows hknows) ht.le_now
    · obtain rfl : now = c.desk.moment := ht
      obtain ⟨r, hr, hle⟩ :=
        Sweep.scheduledAt_le_of_listed hc (Calendar.Moment.utc?_ofInstant c.desk.now) hlisted
      rw [h.scheduled r hr] at hle
      exact Calendar.Instant.text_le_iff.mp hle

theorem Punctual.after (h : c.Punctual id t₀) {ts : List Turn} (hts : c.Throughout OnTime ts) :
    (c.after ts).Punctual id t₀ :=
  hts.after (fun _ _ h ht => h.turn ht) h

end punctual

end Crew

end Courier.Outbox
