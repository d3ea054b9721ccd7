import Courier.Proofs.Crew.Steps

/-!
# What a sweep goes by

A sweep reads the messages once, when it lists them. It takes each of them at most once, and sends
it to the recipients that were missing then, whatever the row says when it is claimed.
-/

namespace Courier.Outbox

namespace Activity

/-- The message is one of those listed, and is sent to recipients that were missing then. -/
def Recalls (listed : List Pending) : Activity → Prop
  | sending p recipient rest _ => p ∈ listed ∧ ∀ x ∈ recipient :: rest, x ∈ p.remaining
  | noting p _ rest _ => p ∈ listed ∧ ∀ x ∈ rest, x ∈ p.remaining
  | _ => True

theorem recalls_toNext {listed : List Pending} {p : Pending} {receipts rest : List String}
    (hp : p ∈ listed) (hrest : ∀ x ∈ rest, x ∈ p.remaining) :
    (toNext p receipts rest).Recalls listed := by
  cases rest with
  | nil => trivial
  | cons recipient rest => exact ⟨hp, hrest⟩

end Activity

namespace Sweep

/-- The sweep takes the messages that it listed, and none of them twice. -/
structure Recalls (listed : List Pending) (s : Sweep) : Prop where
  due : s.due <:+ listed
  nodup : (s.due.map (·.id)).Nodup
  activity : s.activity.Recalls listed
  ahead : ∀ id, s.activity.holding? = some id → id ∉ s.due.map (·.id)

theorem recalls_list {d : Desk} (hst : d.store.WellNumbered) (policy : Policy)
    (now : Calendar.Moment) :
    (list policy now d).Recalls (list policy now d).due where
  due := List.suffix_refl _
  nodup := (list_due hst policy now).1
  activity := by
    unfold list
    split <;> trivial
  ahead id hid := by
    rw [list_holding] at hid
    cases hid

section step
variable {listed : List Pending} {s s' : Sweep} {d : Desk} {st' : Store}

theorem Recalls.activity_step (h : s.Recalls listed) (hstep : s.Step d s' st') :
    s'.activity.Recalls listed := by
  have hact' := h.activity
  cases hstep with
  | still => exact h.activity
  | finished | passed | stuck | unnoted | completed | confirmed | released | returned => trivial
  | reported _ _ hnext => rcases hnext with rfl | rfl <;> trivial
  | claimed _ _ hdue =>
    exact Activity.recalls_toNext (h.due.subset (by simp [hdue])) fun _ hx => hx
  | noted hact | absent hact =>
    rw [hact] at hact'
    exact Activity.recalls_toNext hact'.1 hact'.2

theorem Recalls.step (h : s.Recalls listed) (hstep : s.Step d s' st') : s'.Recalls listed where
  due := hstep.due_suffix.trans h.due
  nodup := h.nodup.sublist (hstep.due_suffix.sublist.map _)
  activity := h.activity_step hstep
  ahead id hid := by
    rcases hstep.holding hid with hclaims | ⟨hholding, -⟩
    · obtain ⟨p, due, _, _, _, _, hdue, rfl, _, _, _, _, rfl, -⟩ := hstep.of_claims hclaims
      have hnodup := h.nodup
      rw [hdue, List.map_cons, List.nodup_cons] at hnodup
      exact hnodup.1
    · exact fun hmem => h.ahead id hholding ((hstep.due_suffix.sublist.map _).subset hmem)

theorem Recalls.answered (h : s.Recalls listed) (answer : Except Failure String) (d : Desk) :
    (s.answered answer d).2.Recalls listed where
  due := by
    rw [answered_due]
    exact h.due
  nodup := by
    rw [answered_due]
    exact h.nodup
  activity := by
    have hact' := h.activity
    unfold Sweep.answered
    split
    · rename_i p recipient rest receipts receipt hact
      rw [hact] at hact'
      exact ⟨hact'.1, fun x hx => hact'.2 x (List.mem_cons_of_mem _ hx)⟩
    · dsimp only [turnTo]
      split <;> trivial
    · trivial
    · split <;> trivial
    · exact h.activity
  ahead id hid := by
    rw [answered_due]
    exact h.ahead id (answered_holding hid)

end step

end Sweep

namespace Crew

theorem recalls_turn {c : Crew} (hc : c.store.WellNumbered) {listed : List Pending} {i : Nat}
    {s : Sweep} (hs : c.sweeps[i]? = some s) (h : s.Recalls listed) (t : Turn) :
    ∃ s', (c.turn t).sweeps[i]? = some s' ∧ s'.Recalls listed ∧ s'.due <:+ s.due := by
  obtain ⟨s', hs', hturn⟩ := (turn_step hc t).sweepTurn hs
  refine ⟨s', hs', ?_⟩
  cases hturn with
  | kept => exact ⟨h, List.suffix_refl _⟩
  | advanced _ hstep => exact ⟨h.step hstep, hstep.due_suffix⟩
  | answered answer =>
    have hdue := Sweep.answered_due answer s c.desk
    exact ⟨h.answered answer c.desk, hdue.symm ▸ List.suffix_refl _⟩

theorem recalls_after {c : Crew} (hc : c.store.WellNumbered) {listed : List Pending} {i : Nat}
    {s : Sweep} (hs : c.sweeps[i]? = some s) (h : s.Recalls listed) (ts : List Turn) :
    ∃ s', (c.after ts).sweeps[i]? = some s' ∧ s'.Recalls listed ∧ s'.due <:+ s.due := by
  induction ts generalizing c s with
  | nil => exact ⟨s, hs, h, List.suffix_refl _⟩
  | cons t ts ih =>
    obtain ⟨s₁, hs₁, h₁, hdue₁⟩ := recalls_turn hc hs h t
    obtain ⟨s', hs', h', hdue'⟩ := ih ((turn_step hc t).wellNumbered hc) hs₁ h₁
    exact ⟨s', hs', h', hdue'.trans hdue₁⟩

/-- A sweep that began goes by what it listed. -/
theorem recalls_join {c : Crew} (hc : c.store.WellNumbered) (policy : Policy)
    (now : Calendar.Moment) (ts : List Turn) :
    ∃ s, (c.after (.join policy now :: ts)).sweeps[c.sweeps.length]? = some s ∧
      s.Recalls (Sweep.list policy now c.desk).due := by
  have hjoin : (c.turn (.join policy now)).sweeps[c.sweeps.length]? =
      some (Sweep.list policy now c.desk) := by simp [turn]
  obtain ⟨s, hs, h, -⟩ := recalls_after ((turn_step hc (.join policy now)).wellNumbered hc) hjoin
    (Sweep.recalls_list hc policy now) ts
  exact ⟨s, hs, h⟩

end Crew

end Courier.Outbox
