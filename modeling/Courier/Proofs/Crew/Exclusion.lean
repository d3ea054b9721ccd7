import Courier.Proofs.Crew.Steps
import Mathlib.Data.List.Induction

/-!
# One sweep for a message

The store keeps the time of a claim and not who made it. Without leases a claim is exclusive all the
same: a message that a sweep holds is there and claimed, no other sweep holds it, and nobody else
changes its row. A sweep holds a message from the turn in which it claims it up to the one in which it
deletes, releases or hands back the message, so these never act on the claim of another sweep.
-/

namespace Courier.Outbox

namespace Crew

/-- After these turns the sweep has claimed the message, and did not give it up since. -/
inductive Holds (c : Crew) (i : Nat) (id : Int) : List Turn → Prop where
  | claim {ts : List Turn} {t : Turn} (h : (c.after ts).claim? t = some (i, id)) :
    Holds c i id (ts ++ [t])
  | keep {ts : List Turn} {t : Turn} (h : Holds c i id ts)
    (ht : (c.after ts).giveUp? t ≠ some (i, id)) : Holds c i id (ts ++ [t])

theorem not_holds_nil {c : Crew} {i : Nat} {id : Int} : ¬ c.Holds i id [] := by
  intro h
  generalize hts : ([] : List Turn) = ts at h
  cases h <;> simp at hts

theorem holds_concat {c : Crew} {i : Nat} {id : Int} {ts : List Turn} {t : Turn} :
    c.Holds i id (ts ++ [t]) ↔
      (c.after ts).claim? t = some (i, id) ∨
        (c.Holds i id ts ∧ (c.after ts).giveUp? t ≠ some (i, id)) := by
  constructor
  · intro h
    generalize hts : ts ++ [t] = us at h
    cases h with
    | claim h =>
      obtain ⟨rfl, ht⟩ := List.append_inj' hts rfl
      cases ht
      exact Or.inl h
    | keep h hkeep =>
      obtain ⟨rfl, ht⟩ := List.append_inj' hts rfl
      cases ht
      exact Or.inr ⟨h, hkeep⟩
  · rintro (h | ⟨h, ht⟩)
    · exact .claim h
    · exact .keep h ht

/-- A row that is claimed stays so unless a sweep gives the message up, and with the same claim unless
a sweep claims it. -/
theorem claimed_turn {c : Crew} (hc : c.store.WellNumbered) {t : Turn} {id : Int} {r : Row}
    (hr : c.store.find? id = some r) (hclaimed : r.claimedAt ≠ none)
    (hgive : ∀ i, c.giveUp? t ≠ some (i, id)) :
    ∃ r', (c.turn t).store.find? id = some r' ∧ r'.claimedAt ≠ none ∧ r'.attempts = r.attempts ∧
      ((∀ i, c.claim? t ≠ some (i, id)) → r'.claimedAt = r.claimedAt) := by
  have hrow := (turn_step hc t).row hc id
  rw [hr] at hrow
  generalize (c.turn t).store.find? id = o at hrow
  have hgives (i : Nat) (s : Sweep) (ht : t = .advance i) (hs : c.sweeps[i]? = some s) :
      s.activity.givesUp? ≠ some id :=
    fun hs' => hgive i (seeAdvance_eq_some.mpr ⟨ht, s, hs, hs'⟩)
  cases hrow with
  | kept => exact ⟨r, rfl, hclaimed, rfl, fun _ => rfl⟩
  | cancelled _ hfree => exact absurd hfree hclaimed
  | touched ht hs htouch =>
    have hne := hgives _ _ ht hs
    cases htouch with
    | kept => exact ⟨r, rfl, hclaimed, rfl, fun _ => rfl⟩
    | claimed _ hclaims =>
      refine ⟨_, rfl, by simp [Row.claimed], rfl, fun hnone => ?_⟩
      exact absurd (seeAdvance_eq_some.mpr ⟨ht, _, hs, hclaims⟩) (hnone _)
    | @noted _ recipient _ _ delivered =>
      have hsame : (r.noted delivered recipient).claimedAt = r.claimedAt := by
        unfold Row.noted
        split <;> rfl
      exact ⟨_, rfl, hsame ▸ hclaimed, Row.attempts_noted _ _ r, fun _ => hsame⟩
    | completed _ hact hid | released _ hact hid | returned _ hact hid =>
      exact absurd (by simp [Activity.givesUp?, hact, hid]) hne

structure Exclusive (c : Crew) (ts : List Turn) : Prop where
  wellNumbered : (c.after ts).store.WellNumbered
  leaseOff : ∀ (i : Nat) (s : Sweep), (c.after ts).sweeps[i]? = some s → s.policy.lease.isOff = true
  claimed : ∀ (i : Nat) (id : Int), c.Holds i id ts →
    ∃ r, (c.after ts).store.find? id = some r ∧ r.claimedAt ≠ none
  single : ∀ (i j : Nat) (id : Int), c.Holds i id ts → c.Holds j id ts → i = j
  atWork : ∀ (i : Nat) (s : Sweep) (id : Int), (c.after ts).sweeps[i]? = some s →
    s.activity.holding? = some id → c.Holds i id ts

theorem exclusive_nil {c : Crew} (hc : c.IsFresh) : Exclusive c [] where
  wellNumbered := hc.wellNumbered
  leaseOff i s hs := by simp [hc.noSweeps] at hs
  claimed _ _ h := absurd h not_holds_nil
  single _ _ _ h := absurd h not_holds_nil
  atWork i s id hs := by simp [hc.noSweeps] at hs

section step
variable {c : Crew} {ts : List Turn} {t : Turn} (h : Exclusive c ts)
include h

theorem Exclusive.free_of_claims {i : Nat} {s : Sweep} {id : Int}
    (hs : (c.after ts).sweeps[i]? = some s) (hclaims : s.claims? (c.after ts).desk = some id) :
    ∃ r, (c.after ts).store.find? id = some r ∧ r.claimedAt = none := by
  have hstep := Sweep.advance_step (s := s) (d := (c.after ts).desk) h.wellNumbered
  obtain ⟨p, due, r, cutoff, claimedAt, -, -, -, -, hcutoff, hr, hclaim, -⟩ :=
    hstep.of_claims hclaims
  rw [Store.staleCutoff_off (h.leaseOff i s hs)] at hcutoff
  cases hcutoff
  exact ⟨r, hr, (Store.isClaimable_off r).mp hclaim⟩

theorem Exclusive.holds_of_giveUp {i : Nat} {id : Int}
    (hgive : (c.after ts).giveUp? t = some (i, id)) : c.Holds i id ts := by
  obtain ⟨-, s, hs, hs'⟩ := seeAdvance_eq_some.mp hgive
  exact h.atWork i s id hs (Activity.holding?_of_givesUp? hs')

/-- A row that a sweep holds is changed in no turn but its own. -/
theorem Exclusive.row_eq {i : Nat} {id : Int} (hholds : c.Holds i id ts) (ht : t.sweep? ≠ some i) :
    ((c.after ts).turn t).store.find? id = (c.after ts).store.find? id := by
  obtain ⟨r, hr, hclaimed⟩ := h.claimed i id hholds
  have hrow := (turn_step h.wellNumbered t).row h.wellNumbered id
  rw [hr] at hrow ⊢
  generalize ((c.after ts).turn t).store.find? id = o at hrow
  cases hrow with
  | kept => rfl
  | cancelled _ hfree => exact absurd hfree hclaimed
  | @touched j s _ _ hturn hs htouch =>
    refine htouch.eq_of_not_holding (fun hholding => ?_) fun hclaims => ?_
    · have hij := h.single i j id hholds (h.atWork j s id hs hholding)
      exact ht (by rw [hturn, hij]; rfl)
    · obtain ⟨r', hr', hfree⟩ := h.free_of_claims hs hclaims
      rw [hr] at hr'
      cases hr'
      exact hclaimed hfree

theorem Exclusive.claimed_concat {i : Nat} {id : Int} (hholds : c.Holds i id (ts ++ [t])) :
    ∃ r, (c.after (ts ++ [t])).store.find? id = some r ∧ r.claimedAt ≠ none := by
  rw [after_append]
  rcases holds_concat.mp hholds with hclaim | ⟨hholds, hkeep⟩
  · obtain ⟨rfl, s, hs, hclaims⟩ := seeAdvance_eq_some.mp hclaim
    obtain ⟨s', -, hstep⟩ := advance_sweep h.wellNumbered hs
    obtain ⟨p, due, r, cutoff, claimedAt, -, -, -, -, -, hr, -, -, hst⟩ := hstep.of_claims hclaims
    refine ⟨r.claimed claimedAt, ?_, by simp [Row.claimed]⟩
    change ((c.after ts).turn (.advance i)).store.find? id = _
    rw [hst, Store.find?_modify_self (Row.keepsId_claimed claimedAt), hr]
    rfl
  · obtain ⟨r, hr, hclaimed⟩ := h.claimed i id hholds
    obtain ⟨r', hr', hclaimed', -⟩ := claimed_turn h.wellNumbered hr hclaimed fun j hgive => by
      have hij := h.single i j id hholds (h.holds_of_giveUp hgive)
      exact hkeep (hij ▸ hgive)
    exact ⟨r', hr', hclaimed'⟩

theorem Exclusive.single_concat {i j : Nat} {id : Int} (hi : c.Holds i id (ts ++ [t]))
    (hj : c.Holds j id (ts ++ [t])) : i = j := by
  have clash {i j : Nat} (hclaim : (c.after ts).claim? t = some (i, id))
      (hholds : c.Holds j id ts) : False := by
    obtain ⟨-, s, hs, hclaims⟩ := seeAdvance_eq_some.mp hclaim
    obtain ⟨r, hr, hfree⟩ := h.free_of_claims hs hclaims
    obtain ⟨r', hr', hclaimed⟩ := h.claimed j id hholds
    rw [hr] at hr'
    cases hr'
    exact hclaimed hfree
  rcases holds_concat.mp hi with hi | ⟨hi, -⟩
  · rcases holds_concat.mp hj with hj | ⟨hj, -⟩
    · rw [hi] at hj
      cases hj
      rfl
    · exact (clash hi hj).elim
  · rcases holds_concat.mp hj with hj | ⟨hj, -⟩
    · exact (clash hj hi).elim
    · exact h.single i j id hi hj

theorem Exclusive.atWork_concat {i : Nat} {s' : Sweep} {id : Int}
    (hs' : (c.after (ts ++ [t])).sweeps[i]? = some s') (hholding : s'.activity.holding? = some id) :
    c.Holds i id (ts ++ [t]) := by
  rw [after_append] at hs'
  cases (turn_step h.wellNumbered t).sweep hs' with
  | kept hs ht =>
    refine .keep (h.atWork i s' id hs hholding) fun hgive => ?_
    obtain ⟨rfl, -⟩ := seeAdvance_eq_some.mp hgive
    exact ht rfl
  | joined policy now _ _ hlist =>
    rw [hlist, Sweep.list_holding] at hholding
    cases hholding
  | @advanced s ht hs hstep =>
    rcases hstep.holding hholding with hclaims | ⟨hholding, hgives⟩
    · exact .claim (seeAdvance_eq_some.mpr ⟨ht, s, hs, hclaims⟩)
    · refine .keep (h.atWork i s id hs hholding) fun hgive => ?_
      obtain ⟨-, s₂, hs₂, hgives₂⟩ := seeAdvance_eq_some.mp hgive
      rw [hs] at hs₂
      cases hs₂
      exact hgives hgives₂
  | @answered s answer ht hs hs' =>
    subst hs'
    refine .keep (h.atWork i s id hs (Sweep.answered_holding hholding)) fun hgive => ?_
    obtain ⟨rfl, -⟩ := seeAdvance_eq_some.mp hgive
    cases ht

theorem Exclusive.concat (ht : t.LeaseOff) : Exclusive c (ts ++ [t]) where
  wellNumbered := by
    rw [after_append]
    exact wellNumbered_after h.wellNumbered [t]
  leaseOff i s' hs' := by
    rw [after_append] at hs'
    cases (turn_step h.wellNumbered t).sweep hs' with
    | kept hs => exact h.leaseOff i s' hs
    | joined policy now hjoin _ hlist =>
      rw [hlist, Sweep.list_policy]
      rw [hjoin] at ht
      exact ht
    | advanced _ hs hstep => exact hstep.policy_eq ▸ h.leaseOff i _ hs
    | answered answer _ hs hs' =>
      rw [hs', Sweep.answered_policy]
      exact h.leaseOff i _ hs
  claimed _ _ := h.claimed_concat
  single _ _ _ := h.single_concat
  atWork _ _ _ := h.atWork_concat

end step

theorem exclusive_of_leaseOff {c : Crew} (hc : c.IsFresh) {ts : List Turn}
    (hoff : ∀ t ∈ ts, t.LeaseOff) : Exclusive c ts := by
  -- From the end of the run, since who holds a message is decided by the last turn.
  induction ts using List.reverseRecOn with
  | nil => exact exclusive_nil hc
  | append_singleton ts t ih =>
    refine (ih fun u hu => hoff u (List.mem_append_left _ hu)).concat ?_
    exact hoff t (by simp)

/-- Without leases each message is held by at most one sweep; while it is held its row is there and
claimed, and is changed in no turn of anybody else; and whatever deletes, releases or hands back a
message is done by the sweep that holds it. -/
theorem claims_are_exclusive (c : Crew) (hc : c.IsFresh) (ts : List Turn)
    (hoff : ∀ t ∈ ts, t.LeaseOff) :
    (∀ i j id, c.Holds i id ts → c.Holds j id ts → i = j) ∧
    (∀ i id, c.Holds i id ts →
      ∃ r, (c.after ts).store.find? id = some r ∧ r.claimedAt ≠ none) ∧
    (∀ t i id, (c.after ts).giveUp? t = some (i, id) → c.Holds i id ts) ∧
    (∀ t i id, c.Holds i id ts → t.sweep? ≠ some i →
      ((c.after ts).turn t).store.find? id = (c.after ts).store.find? id) := by
  have h := exclusive_of_leaseOff hc hoff
  exact ⟨h.single, h.claimed, fun _ _ _ => h.holds_of_giveUp, fun _ _ _ => h.row_eq⟩

/-- Two sweeps list the same message, and the first one claims it. -/
def claimedAtOne : List Turn :=
  [.dispatch greeting (.int 5) .null, .setClock oneOClock,
    .join thrice (.ofInstant oneOClock), .join thrice (.ofInstant oneOClock),
    .advance 0]

theorem claims_are_exclusive_greeting :
    (idle noon).Holds 0 1 claimedAtOne ∧
      (∀ j, (idle noon).Holds j 1 claimedAtOne → 0 = j) ∧
      (∃ r, ((idle noon).after claimedAtOne).store.find? 1 = some r ∧ r.claimedAt ≠ none) ∧
      ((((idle noon).after claimedAtOne).turn (.advance 1)).store.find? 1 =
        ((idle noon).after claimedAtOne).store.find? 1) := by
  have hholds : (idle noon).Holds 0 1 (claimedAtOne.dropLast ++ [.advance 0]) :=
    .claim (by decide +kernel)
  obtain ⟨hsingle, hclaimed, -, hkept⟩ := claims_are_exclusive (idle noon) (isFresh_idle noon)
    claimedAtOne (by simp [claimedAtOne, thrice, Turn.LeaseOff, Lease.isOff])
  exact ⟨hholds, fun j => hsingle 0 j 1 hholds, hclaimed 0 1 hholds,
    hkept (.advance 1) 0 1 hholds (by decide)⟩

end Crew

end Courier.Outbox
