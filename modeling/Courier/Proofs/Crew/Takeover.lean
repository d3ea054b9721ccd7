import Courier.Proofs.Crew.Exclusion
import Courier.Proofs.Crew.Staleness
import Courier.Proofs.Outbox.Completion
import Courier.Proofs.Outbox.LeaseWindow

/-!
# Claims that were taken over

A claim whose lease is over may be taken over while the sweep that made it is still at work. The store
keeps the time of a claim and not who made it, and what deletes, releases or hands back a message goes
by its number alone. So the claim of the second sweep stands as long as nobody ends it, and the first
sweep ends it just as its owner does. What keeps the number of sweeps that are at work on a message
small is not a check of the store, but that each of them gives the message up once.
-/

namespace Courier.Outbox

open Calendar (Instant)

namespace Store
variable {st : Store} {id : Int} {r : Row}

theorem cancel_of_admits (hst : st.WellNumbered) (hadmits : st.Admits id) :
    cancel id st = .ok ((st.find? id).any (·.claimedAt.isNone),
      st.remove fun r => r.id == id && r.claimedAt.isNone) := by
  have hany : (st.rows.any fun r => r.id == id && r.claimedAt.isNone) =
      (st.find? id).any (·.claimedAt.isNone) := by
    rw [Bool.eq_iff_iff, any_id_iff hst, Option.any_eq_true]
  rw [← hany]
  exact checks_of_admits hadmits _

theorem cancel_claimed (hst : st.WellNumbered) (hadmits : st.Admits id) (hr : st.find? id = some r)
    (hclaimed : r.claimedAt ≠ none) : cancel id st = .ok (false, st) := by
  have hnone : r.claimedAt.isNone = false := Option.isNone_eq_false_iff.mpr
    (Option.isSome_iff_ne_none.mpr hclaimed)
  have hkept : (st.remove fun r => r.id == id && r.claimedAt.isNone) = st := by
    have hrows : (st.rows.filter fun r => !(r.id == id && r.claimedAt.isNone)) = st.rows := by
      refine List.filter_eq_self.mpr fun r' hr' => ?_
      by_cases hid : r'.id = id
      · have hfind := find?_of_mem hst hr'
        rw [hid, hr] at hfind
        cases hfind
        simp [hnone]
      · simp [hid]
    rw [remove, hrows]
  rw [cancel_of_admits hst hadmits, hr, Option.any_some, hnone, hkept]

theorem cancel_free (hst : st.WellNumbered) (hadmits : st.Admits id) (hr : st.find? id = some r)
    (hfree : r.claimedAt = none) : ∃ st', cancel id st = .ok (true, st') ∧ st'.find? id = none := by
  refine ⟨_, by rw [cancel_of_admits hst hadmits, hr, Option.any_some, hfree]; rfl, ?_⟩
  rw [find?_remove hst, hr]
  exact Option.filter_some_neg (by simp [hfree, id_of_find? hr])

/-- A claim cannot be taken over at the time at which it was made. -/
theorem not_isClaimable_now {t : Instant} {lease : Lease} {cutoff : String}
    (hcutoff : staleCutoff (.ofInstant t) lease = .ok cutoff) (hr : r.claimedAt = some t.text) :
    isClaimable cutoff r = false := by
  cases hon : lease.isOff with
  | true =>
    rw [staleCutoff_off hon] at hcutoff
    cases hcutoff
    rw [Bool.eq_false_iff, ne_eq, isClaimable_off, hr]
    exact Option.some_ne_none _
  | false =>
    unfold staleCutoff at hcutoff
    rw [if_neg (by simp [hon]), instantOf_ofInstant] at hcutoff
    obtain ⟨_, ht, hcutoff⟩ := bind_eq_ok.mp hcutoff
    cases ht
    obtain ⟨span, hspan, hcutoff⟩ := bind_eq_ok.mp hcutoff
    obtain ⟨u, hu, hcutoff⟩ := bind_eq_ok.mp hcutoff
    cases hcutoff
    unfold earlier at hu
    split at hu
    · rename_i u' hadd
      cases hu
      have hmicros := Lease.micros_of_add? hadd
      have hspan' := Lease.span_nonneg hon hspan
      have hle : u ≤ t := by
        show u.micros ≤ t.micros
        omega
      simp only [isClaimable, hr, decide_eq_false_iff_not]
      exact String.not_lt.mpr (Instant.text_le_iff.mpr hle)
    · cases hu

end Store

/-- A sweep claims a message at the time of the clock. -/
theorem Sweep.advance_claims {s : Sweep} {d : Desk} (hst : d.store.WellNumbered) {id : Int}
    (hclaims : s.claims? d = some id) :
    (s.advance d).1.store = d.store.modify id (Row.claimed d.now.text) := by
  obtain ⟨p, due, r, cutoff, -, hact, hdue, rfl, hadmits, hcutoff, hr, hclaimable, -⟩ :=
    (advance_step (s := s) hst).of_claims hclaims
  have hclaim := Store.claim_eq hst (Calendar.Moment.utc?_ofInstant d.now) hcutoff hadmits
  rw [hr, Option.any_some, hclaimable, if_pos rfl] at hclaim
  rw [advance, hact]
  unfold take
  rw [hdue]
  exact congrArg (fun result => result.1.store) (perform_of_ok hclaim)

namespace Crew

/-! ## A claim that stands -/

/-- The message is there, with the claim of a row and as many attempts as that. -/
def Stands (c : Crew) (id : Int) (r : Row) : Prop :=
  ∃ r', c.store.find? id = some r' ∧ r'.claimedAt = r.claimedAt ∧ r'.attempts = r.attempts

/-- A sweep is done with the message: the row is deleted, or it is free again, with one more attempt
if the message was released. -/
inductive Closes (c : Crew) (t : Turn) (i : Nat) (id : Int) (r : Row) : Prop where
  | completed (h : c.complete? t = some (i, id)) (hrow : (c.turn t).store.find? id = none)
  | released (text : String) (h : c.release? t = some (i, id))
    (hrow : (c.turn t).store.find? id = some (r.failed text))
  | returned (hcomplete : c.complete? t = none) (hrelease : c.release? t = none)
    (hrow : (c.turn t).store.find? id = some r.freed)

section turn
variable {c : Crew} (hc : c.store.WellNumbered) {t : Turn} {i : Nat} {id : Int} {r : Row}
include hc

/-- What a sweep does when it is done with a message does not depend on who claimed it. -/
theorem closes_of_giveUp (hadmits : c.store.Admits id) (hr : c.store.find? id = some r)
    (hgive : c.giveUp? t = some (i, id)) : c.Closes t i id r := by
  obtain ⟨rfl, s, hs, hgives⟩ := seeAdvance_eq_some.mp hgive
  obtain ⟨s', -, hstep⟩ := advance_sweep hc hs
  rcases hstep.of_givesUp hgives hadmits with ⟨p, receipts, hact, rfl, -, hst⟩ |
    ⟨p, cause, attempts, hact, rfl, -, hst⟩ | ⟨p, cause, hact, rfl, -, hst⟩
  · refine .completed (seeAdvance_eq_some.mpr ⟨rfl, s, hs, by rw [hact]; rfl⟩) ?_
    rw [hst]
    exact Store.find?_eq_none_iff.mpr fun r' hr' => by simpa using (List.mem_filter.mp hr').2
  · refine .released cause.message (seeAdvance_eq_some.mpr ⟨rfl, s, hs, by rw [hact]; rfl⟩) ?_
    rw [hst, Store.find?_modify_self (Row.keepsId_failed _)]
    exact congrArg (Option.map _) hr
  · refine .returned ?_ ?_ ?_
    · simp [complete?, seeAdvance, hs, hact, Activity.completes?]
    · simp [release?, seeAdvance, hs, hact, Activity.releases?]
    · rw [hst, Store.find?_modify_self Row.keepsId_freed]
      exact congrArg (Option.map _) hr

theorem stands_turn (h : c.Stands id r) (hclaimed : r.claimedAt ≠ none)
    (hgive : ∀ j, c.giveUp? t ≠ some (j, id)) (hclaim : ∀ j, c.claim? t ≠ some (j, id)) :
    (c.turn t).Stands id r := by
  obtain ⟨r', hr', hat, hattempts⟩ := h
  obtain ⟨r'', hr'', -, hattempts', hat'⟩ := claimed_turn hc hr' (hat ▸ hclaimed) hgive
  exact ⟨r'', hr'', (hat' hclaim).trans hat, hattempts'.trans hattempts⟩

theorem not_stands_of_giveUp (hadmits : c.store.Admits id) (h : c.Stands id r)
    (hclaimed : r.claimedAt ≠ none) (hgive : c.giveUp? t = some (i, id)) :
    ¬ (c.turn t).Stands id r := by
  obtain ⟨r', hr', -⟩ := h
  rintro ⟨r'', hr'', hat, -⟩
  cases closes_of_giveUp hc hadmits hr' hgive with
  | completed _ hrow =>
    rw [hrow] at hr''
    cases hr''
  | released _ _ hrow | returned _ _ hrow =>
    rw [hrow] at hr''
    cases hr''
    exact hclaimed hat.symm

theorem claimedAt_of_claim (hclaim : c.claim? t = some (i, id)) :
    ∃ r cutoff lease, c.store.find? id = some r ∧
      staleCutoff c.desk.moment lease = .ok cutoff ∧ Store.isClaimable cutoff r = true ∧
      (c.turn t).store.find? id = some (r.claimed c.desk.now.text) := by
  obtain ⟨rfl, s, hs, hclaims⟩ := seeAdvance_eq_some.mp hclaim
  obtain ⟨_, _, r, cutoff, _, -, -, -, -, hcutoff, hr, hclaimable, -⟩ :=
    (Sweep.advance_step (s := s) hc).of_claims hclaims
  refine ⟨r, cutoff, _, hr, hcutoff, hclaimable, ?_⟩
  rw [turn, act, hs]
  show ((s.advance c.desk).1.store).find? id = _
  rw [Sweep.advance_claims hc hclaims, Store.find?_modify_self (Row.keepsId_claimed _)]
  exact congrArg (Option.map _) hr

/-- A claim that is taken over does not stand: it is older than the one that takes its place. -/
theorem not_stands_of_claim (h : c.Stands id r) (hclaim : c.claim? t = some (i, id)) : ¬ (c.turn t).Stands id r := by
  obtain ⟨r', hr', hat, -⟩ := h
  rintro ⟨r'', hr'', hat', -⟩
  obtain ⟨r₁, cutoff, lease, hr₁, hcutoff, hclaimable, hrow⟩ := claimedAt_of_claim hc hclaim
  rw [hr'] at hr₁
  cases hr₁
  rw [hrow] at hr''
  cases hr''
  have hsame : r'.claimedAt = some c.desk.now.text := hat.trans hat'.symm
  rw [Store.not_isClaimable_now hcutoff hsame] at hclaimable
  cases hclaimable

/-- A claim stands after a turn exactly if no sweep gave the message up or claimed it. -/
theorem stands_turn_iff (hadmits : c.store.Admits id) (h : c.Stands id r)
    (hclaimed : r.claimedAt ≠ none) :
    (c.turn t).Stands id r ↔
      ∀ j, c.giveUp? t ≠ some (j, id) ∧ c.claim? t ≠ some (j, id) := by
  constructor
  · intro hstands j
    exact ⟨fun hgive => not_stands_of_giveUp hc hadmits h hclaimed hgive hstands,
      fun hclaim => not_stands_of_claim hc h hclaim hstands⟩
  · intro hquiet
    exact stands_turn hc h hclaimed (fun j => (hquiet j).1) fun j => (hquiet j).2

end turn

theorem stands_along_iff {c : Crew} (hc : c.store.WellNumbered) {id : Int}
    (hadmits : c.store.Admits id) {r : Row} (h : c.Stands id r) (hclaimed : r.claimedAt ≠ none)
    (ts : List Turn) :
    (∀ us, us <+: ts → (c.after us).Stands id r) ↔
      ∀ j, (j, id) ∉ c.along giveUp? ts ∧ (j, id) ∉ c.along claim? ts := by
  induction ts generalizing c with
  | nil =>
    constructor
    · intro _ j
      exact ⟨List.not_mem_nil, List.not_mem_nil⟩
    · intro _ us hus
      rw [List.prefix_nil.mp hus]
      exact h
  | cons t ts ih =>
    have hwell := (turn_step hc t).wellNumbered hc
    have hadmits' : (c.turn t).store.Admits id := (admits_after hc [t]).mpr hadmits
    have hiff := stands_turn_iff (t := t) hc hadmits h hclaimed
    simp only [along, List.mem_append, Option.mem_toList, not_or]
    constructor
    · intro hall j
      have hturn : (c.turn t).Stands id r := hall [t] ⟨ts, rfl⟩
      have hrest := (ih hwell hadmits' hturn).mp fun us hus =>
        hall (t :: us) (List.cons_prefix_cons.mpr ⟨rfl, hus⟩)
      exact ⟨⟨(hiff.mp hturn j).1, (hrest j).1⟩, (hiff.mp hturn j).2, (hrest j).2⟩
    · intro hquiet us hus
      have hturn := hiff.mpr fun j => ⟨(hquiet j).1.1, (hquiet j).2.1⟩
      cases us with
      | nil => exact h
      | cons u us =>
        obtain ⟨rfl, hprefix⟩ := List.cons_prefix_cons.mp hus
        exact (ih hwell hadmits' hturn).mpr (fun j => ⟨(hquiet j).1.2, (hquiet j).2.2⟩) us hprefix

/-! ## How many sweeps are at work on a message -/

/-- The number of sweeps that claimed the message and did not give it up yet. -/
def workers (c : Crew) (id : Int) : Nat :=
  c.sweeps.countP fun s => s.activity.holding? == some id

def isClaimed (c : Crew) (id : Int) : Bool :=
  (c.store.find? id).any (·.claimedAt.isSome)

/-- The sweep and the message, if a turn is the successful claim of a message that was claimed
before. -/
def takeOver? (c : Crew) (t : Turn) : Option (Nat × Int) :=
  (c.claim? t).filter fun e => c.isClaimed e.2

def takeOvers (c : Crew) (ts : List Turn) (id : Int) : Nat :=
  (c.along takeOver? ts).countP fun e => e.2 == id

theorem takeOvers_cons (c : Crew) (t : Turn) (ts : List Turn) (id : Int) :
    c.takeOvers (t :: ts) id = c.takeOvers [t] id + (c.turn t).takeOvers ts id := by
  simp only [takeOvers, along, List.append_nil, List.countP_append]

theorem toNat_mono {a b : Bool} (h : a = true → b = true) : a.toNat ≤ b.toNat := by
  revert h
  revert a b
  decide

theorem countP_set {l : List Sweep} {i : Nat} {s : Sweep} (hs : l[i]? = some s) (s' : Sweep)
    (p : Sweep → Bool) : (l.set i s').countP p + (p s).toNat = l.countP p + (p s').toNat := by
  obtain ⟨hi, rfl⟩ := List.getElem?_eq_some_iff.mp hs
  have hpos : p l[i] = true → 0 < l.countP p := fun hp =>
    List.countP_pos_iff.mpr ⟨l[i], List.getElem_mem hi, hp⟩
  rw [List.countP_set hi]
  cases hp : p l[i] with
  | false => cases p s' <;> simp
  | true =>
    have := hpos hp
    cases p s' <;> simp <;> omega

section workers
variable {c : Crew} (hc : c.store.WellNumbered) {t : Turn} {id : Int}
include hc

theorem isClaimed_turn (hgive : ∀ j, c.giveUp? t ≠ some (j, id)) :
    (c.isClaimed id).toNat ≤ ((c.turn t).isClaimed id).toNat := by
  cases hr : c.store.find? id with
  | none => simp [isClaimed, hr]
  | some r =>
    by_cases hclaimed : r.claimedAt = none
    · simp [isClaimed, hr, hclaimed]
    · obtain ⟨r', hr', hclaimed', -⟩ := claimed_turn hc hr hclaimed hgive
      have hsome : (c.turn t).isClaimed id = true := by
        rw [isClaimed, hr', Option.any_some]
        exact Option.isSome_iff_ne_none.mpr hclaimed'
      rw [hsome]
      exact Bool.toNat_le _

/-- A sweep that begins work on a message claims it, and one that ends it was at work on it. -/
theorem workers_advance {i : Nat} {s s' : Sweep} (hs : c.sweeps[i]? = some s)
    (hstep : s.Step c.desk s' (c.turn (.advance i)).store) :
    (s'.activity.holding? == some id).toNat + (c.isClaimed id).toNat ≤
      (s.activity.holding? == some id).toNat + c.takeOvers [.advance i] id +
        ((c.turn (.advance i)).isClaimed id).toNat := by
  have hlast : (s'.activity.holding? == some id).toNat ≤ 1 := Bool.toNat_le _
  have hfirst : (c.isClaimed id).toNat ≤ 1 := Bool.toNat_le _
  by_cases hclaims : s.claims? c.desk = some id
  · have hclaim : c.claim? (.advance i) = some (i, id) := seeAdvance_eq_some.mpr ⟨rfl, s, hs, hclaims⟩
    have htaken : c.takeOvers [.advance i] id = (c.isClaimed id).toNat := by
      rw [takeOvers, along_singleton, takeOver?, hclaim]
      cases hclaimed : c.isClaimed id <;> simp [Option.filter, hclaimed]
    obtain ⟨r, -, -, hr, -, -, hrow⟩ := claimedAt_of_claim hc hclaim
    have hclaimed : (c.turn (.advance i)).isClaimed id = true := by
      rw [isClaimed, hrow]
      rfl
    rw [htaken, hclaimed, Bool.toNat_true]
    omega
  by_cases hgives : s.activity.givesUp? = some id
  · have hbefore : (s.activity.holding? == some id) = true :=
      beq_iff_eq.mpr (Activity.holding?_of_givesUp? hgives)
    have hafter : (s'.activity.holding? == some id) = false := by
      rw [beq_eq_false_iff_ne]
      intro hholding
      rcases hstep.holding hholding with hclaims' | ⟨-, hkeeps⟩
      · exact hclaims hclaims'
      · exact hkeeps hgives
    rw [hbefore, hafter, Bool.toNat_true, Bool.toNat_false]
    omega
  · have hclaimed : (c.isClaimed id).toNat ≤ ((c.turn (.advance i)).isClaimed id).toNat := by
      refine isClaimed_turn hc fun j hgive => ?_
      obtain ⟨hj, s₁, hs₁, hgives₁⟩ := seeAdvance_eq_some.mp hgive
      cases hj
      rw [hs] at hs₁
      cases hs₁
      exact hgives hgives₁
    have hle := toNat_mono fun hholding : (s'.activity.holding? == some id) = true =>
      beq_iff_eq.mpr <| (hstep.holding (beq_iff_eq.mp hholding)).elim
        (fun hclaims' => absurd hclaims' hclaims) fun h => h.1
    omega

/-- One more sweep is at work on a message only if the message becomes claimed, or if it is taken
over. -/
theorem workers_turn :
    (c.turn t).workers id + (c.isClaimed id).toNat ≤
      c.workers id + c.takeOvers [t] id + ((c.turn t).isClaimed id).toNat := by
  have hothers (ht : ∀ j s, t = .advance j → c.sweeps[j]? ≠ some s) :
      (c.isClaimed id).toNat ≤ ((c.turn t).isClaimed id).toNat :=
    isClaimed_turn hc fun j hgive => by
      obtain ⟨he, s, hs, -⟩ := seeAdvance_eq_some.mp hgive
      exact ht j s he hs
  cases turn_step hc t with
  | still ht _ hsweeps =>
    have hclaimed := hothers fun j s he hs => by
      rw [ht j (by rw [he]; rfl)] at hs
      cases hs
    rw [workers, workers, hsweeps]
    omega
  | stored ht _ _ hsweeps | cancelled _ ht _ _ hsweeps =>
    have hclaimed := hothers fun j _ he => by
      rw [he] at ht
      cases ht
    rw [workers, workers, hsweeps]
    omega
  | joined policy now _ hsweeps =>
    have hclaimed := hothers fun j _ he => by cases he
    rw [workers, workers, hsweeps, List.countP_append, List.countP_singleton,
      Sweep.list_holding policy now c.desk, if_neg (by simp)]
    omega
  | @answered _ i s answer hs _ hsweeps =>
    have hclaimed := hothers fun j _ he => by cases he
    have hcount := countP_set hs (s.answered answer c.desk).2 fun s => s.activity.holding? == some id
    have hle := toNat_mono fun hholding : ((s.answered answer c.desk).2.activity.holding? == some id) =
      true => beq_iff_eq.mpr (Sweep.answered_holding (beq_iff_eq.mp hholding))
    rw [workers, workers, hsweeps]
    omega
  | @advanced _ i s s' hs hstep hsweeps =>
    have hcount := countP_set hs s' fun s => s.activity.holding? == some id
    have hadvance : (s'.activity.holding? == some id).toNat + (c.isClaimed id).toNat ≤
        (s.activity.holding? == some id).toNat + c.takeOvers [.advance i] id +
          ((c.turn (.advance i)).isClaimed id).toNat := workers_advance hc hs hstep
    rw [workers, workers, hsweeps]
    omega

end workers

theorem workers_after {c : Crew} (hc : c.store.WellNumbered) (ts : List Turn) (id : Int) :
    (c.after ts).workers id + (c.isClaimed id).toNat ≤
      c.workers id + c.takeOvers ts id + ((c.after ts).isClaimed id).toNat := by
  induction ts generalizing c with
  | nil => simp [takeOvers, along]
  | cons t ts ih =>
    have hturn : (c.turn t).workers id + (c.isClaimed id).toNat ≤
        c.workers id + c.takeOvers [t] id + ((c.turn t).isClaimed id).toNat := workers_turn hc
    have hrest := ih ((turn_step hc t).wellNumbered hc)
    rw [after_cons, takeOvers_cons]
    omega

/-- A sweep claims a message at the time of the clock. Its claim stands, with as many attempts as then,
exactly as long as no sweep gives the message up or claims it; and while it stands the message is not
cancelled. If a sweep gives the message up, be it the owner of the claim or one that claimed it before,
the row is deleted or freed all the same, and then the message can be cancelled, while the other sweeps
go on with what they do. There is never more than one sweep at work on the message for each time that
it was taken over, and one. -/
theorem claim_stands_iff {c : Crew} (hc : c.IsFresh) (ts : List Turn) {t : Turn} {j : Nat} {id : Int}
    (hclaim : (c.after ts).claim? t = some (j, id)) :
    let b := (c.after ts).turn t
    ∃ r, b.store.find? id = some r ∧ r.claimedAt = some (c.after ts).desk.now.text ∧
      (∀ us, (∀ vs, vs <+: us → (b.after vs).Stands id r) ↔
        ∀ i, (i, id) ∉ b.along giveUp? us ∧ (i, id) ∉ b.along claim? us) ∧
      (∀ us, (b.after us).Stands id r →
        Store.cancel id (b.after us).store = .ok (false, (b.after us).store) ∧
        ∀ u i, (b.after us).giveUp? u = some (i, id) →
          (∃ r', (b.after us).store.find? id = some r' ∧ (b.after us).Closes u i id r') ∧
          ((b.after us).complete? u = none →
            ∃ st, Store.cancel id ((b.after us).turn u).store = .ok (true, st) ∧ st.find? id = none) ∧
          ∀ k, k ≠ i → ((b.after us).turn u).sweeps[k]? = (b.after us).sweeps[k]?) ∧
      ∀ us, (b.after us).workers id ≤ c.takeOvers (ts ++ t :: us) id + 1 := by
  intro b
  have hwell := wellNumbered_after hc.wellNumbered ts
  have hb : b.store.WellNumbered := (turn_step hwell t).wellNumbered hwell
  obtain ⟨-, -, hadmits⟩ := row_of_claim hwell hclaim
  have hadmits' (us : List Turn) : (b.after us).store.Admits id :=
    (admits_after hb us).mpr ((admits_after hwell [t]).mpr hadmits)
  obtain ⟨r₀, -, -, -, -, -, hrow⟩ := claimedAt_of_claim hwell hclaim
  have hclaimed : (r₀.claimed (c.after ts).desk.now.text).claimedAt ≠ none := Option.some_ne_none _
  refine ⟨_, hrow, rfl, ?_, ?_, ?_⟩
  · exact stands_along_iff hb (hadmits' []) ⟨_, hrow, rfl, rfl⟩ hclaimed
  · intro us hstands
    have hus := wellNumbered_after hb us
    obtain ⟨r', hr', hat, -⟩ := hstands
    refine ⟨Store.cancel_claimed hus (hadmits' us) hr' (hat ▸ hclaimed), fun u i hgive => ?_⟩
    have hcloses := closes_of_giveUp hus (hadmits' us) hr' hgive
    have hturn := (turn_step hus u).wellNumbered hus
    have hadmitted : ((b.after us).turn u).store.Admits id := (admits_after hus [u]).mpr (hadmits' us)
    refine ⟨⟨r', hr', hcloses⟩, fun hcomplete => ?_, fun k hk => ?_⟩
    · cases hcloses with
      | completed h =>
        rw [hcomplete] at h
        cases h
      | released _ _ hrow' => exact Store.cancel_free hturn hadmitted hrow' rfl
      | returned _ _ hrow' => exact Store.cancel_free hturn hadmitted hrow' rfl
    · obtain ⟨rfl, s, hs, -⟩ := seeAdvance_eq_some.mp hgive
      obtain ⟨s', hsweeps, -⟩ := advance_sweep hus hs
      rw [hsweeps, List.getElem?_set_ne (Ne.symm hk)]
  · intro us
    have hworkers := workers_after hc.wellNumbered (ts ++ t :: us) id
    have hnobody : c.workers id = 0 := by rw [workers, hc.noSweeps, List.countP_nil]
    have hone : ((c.after (ts ++ t :: us)).isClaimed id).toNat ≤ 1 := Bool.toNat_le _
    rw [after_append, after_cons] at hworkers hone
    show (((c.after ts).turn t).after us).workers id ≤ _
    omega

/-! ## A sweep that comes too late -/

def oneMinute : Policy :=
  ⟨3, .whole 60, none, 15⟩

def twoMinutesPast : Instant :=
  ⟨63844894920000000, by decide⟩

/-- The first sweep is sending the message still when a second one lists it. -/
def slowSend : List Turn :=
  [.dispatch greeting (.int 5) .null, .setClock oneOClock,
    .join oneMinute (.ofInstant oneOClock), .advance 0, .setClock twoMinutesPast,
    .join oneMinute (.ofInstant twoMinutesPast)]

/-- The call of the first sweep fails, and the sweep releases the message. -/
def lateRelease : List Turn :=
  [.answer 0 (.error (.collaborator .runtime [.text "down"])), .advance 0]

theorem claim_stands_iff_slowSend :
    ((idle noon).after slowSend).claim? (.advance 1) = some (1, 1) ∧
      let b := ((idle noon).after slowSend).turn (.advance 1)
      ∃ r, b.store.find? 1 = some r ∧ r.claimedAt = some twoMinutesPast.text ∧
        (∀ vs, vs <+: lateRelease.take 1 → (b.after vs).Stands 1 r) ∧
        ¬ (∀ vs, vs <+: lateRelease → (b.after vs).Stands 1 r) ∧
        (b.after lateRelease).workers 1 ≤ 2 := by
  have hclaim : ((idle noon).after slowSend).claim? (.advance 1) = some (1, 1) := by decide +kernel
  refine ⟨hclaim, ?_⟩
  intro b
  obtain ⟨r, hr, hat, hiff, -, hworkers⟩ := claim_stands_iff (isFresh_idle noon) slowSend hclaim
  refine ⟨r, hr, hat, ?_, ?_, ?_⟩
  · rw [hiff]
    have hquiet : b.along giveUp? (lateRelease.take 1) = [] ∧
        b.along claim? (lateRelease.take 1) = [] := by decide +kernel
    intro i
    rw [hquiet.1, hquiet.2]
    exact ⟨List.not_mem_nil, List.not_mem_nil⟩
  · rw [hiff]
    have hgive : ((0, 1) : Nat × Int) ∈ b.along giveUp? lateRelease := by decide +kernel
    intro hquiet
    exact (hquiet 0).1 hgive
  · have hone : (idle noon).takeOvers (slowSend ++ .advance 1 :: lateRelease) 1 = 1 := by
      decide +kernel
    have hle := hworkers lateRelease
    rw [hone] at hle
    exact hle

/-- The second sweep takes the message over and is sending it. Then the first one releases it: that
clears the claim of the second and counts an attempt, and the message can be cancelled. -/
theorem late_release_clears_claim :
    let b := ((idle noon).after slowSend).turn (.advance 1)
    ((idle noon).after slowSend).takeOver? (.advance 1) = some (1, 1) ∧
      (b.sweeps[0]?.bind Sweep.request?).isSome = true ∧
      (b.store.find? 1).map (fun r => (r.claimedAt, r.attempts)) =
        some (some twoMinutesPast.text, 0) ∧
      ((b.after lateRelease).sweeps[1]?.bind Sweep.request?).isSome = true ∧
      ((b.after lateRelease).store.find? 1).map (fun r => (r.claimedAt, r.attempts)) =
        some (none, 1) ∧
      (Store.cancel 1 (b.after lateRelease).store).toOption.map (·.1) = some true := by
  decide +kernel

end Crew

end Courier.Outbox
