import Courier.Proofs.Crew.Listing

/-!
# Claims on stale listings

A claim looks at the number of a message and at its claim, and at nothing else. What a sweep does
with a message that it has claimed goes by the row as it was when the sweep listed it, so it is right
for the row as it is exactly if nothing was written to it in between.
-/

namespace Courier.Outbox

/-! ## What is written to a row -/

namespace Activity

theorem notes?_eq_some {a : Activity} {id : Int} {recipient : String}
    (h : a.notes? = some (id, recipient)) :
    ∃ p rest receipts, a = noting p recipient rest receipts ∧ p.id = id := by
  cases a with
  | noting p recipient' rest receipts =>
    cases h
    exact ⟨p, rest, receipts, rfl, rfl⟩
  | _ => cases h

theorem releases?_eq_some {a : Activity} {id : Int} (h : a.releases? = some id) :
    ∃ p cause, a = releasing p cause ∧ p.id = id := by
  cases a with
  | releasing p cause =>
    cases h
    exact ⟨p, cause, rfl, rfl⟩
  | _ => cases h

end Activity

namespace Row

theorem mem_withNoted {delivered : List String} {recipient x : String} :
    x ∈ withNoted delivered recipient ↔ x ∈ delivered ∨ recipient = x := by
  unfold withNoted
  split
  · rename_i hmem
    exact ⟨Or.inl, fun hx => hx.elim (fun hx => hx) fun hx => hx ▸ hmem⟩
  · simp [eq_comm]

end Row

namespace Sweep

section step
variable {s s' : Sweep} {d : Desk} {st' : Store} {id : Int} {r r' : Row} {delivered : List String}

/-- A step that neither notes a recipient nor releases the message leaves what the row says of
both. -/
theorem Touch.unwritten (h : s.Touch d id (some r) (some r')) (hd : r.Notes delivered)
    (hnotes : ∀ x, s.activity.notes? ≠ some (id, x)) (hreleases : s.activity.releases? ≠ some id) :
    r'.Notes delivered ∧ r'.attempts = r.attempts := by
  generalize ho : some r' = o at h
  cases h with
  | kept => cases ho; exact ⟨hd, rfl⟩
  | claimed => cases ho; exact ⟨hd, rfl⟩
  | noted hact hid => exact absurd (by rw [hact, ← hid]; rfl) (hnotes _)
  | completed => cases ho
  | released _ hact hid => exact absurd (by rw [hact, ← hid]; rfl) hreleases
  | returned => cases ho; exact ⟨hd, rfl⟩

/-- The recipients that a row notes grow by those that are noted, and its attempts by its
releases. -/
theorem Step.written (h : s.Step d s' st') (hst : d.store.WellNumbered)
    (hadmits : d.store.Admits id) (hr : d.store.find? id = some r)
    (hr' : st'.find? id = some r') (hd : r.Notes delivered) :
    ∃ delivered', r'.Notes delivered' ∧
      (∀ x, x ∈ delivered' ↔ x ∈ delivered ∨ s.activity.notes? = some (id, x)) ∧
      r'.attempts = r.attempts + if s.activity.releases? = some id then 1 else 0 := by
  by_cases hnotes : ∃ x, s.activity.notes? = some (id, x)
  · obtain ⟨recipient, hnotes⟩ := hnotes
    obtain ⟨p, rest, receipts, hact, rfl⟩ := Activity.notes?_eq_some hnotes
    obtain ⟨-, rfl⟩ := h.of_noting hact hadmits hr hd
    rw [Store.find?_modify_self (Row.keepsId_noted _ _), hr] at hr'
    cases hr'
    refine ⟨_, Row.notes_noted hd recipient, fun x => ?_, ?_⟩
    · rw [Row.mem_withNoted, hnotes]
      simp
    · simp [hact, Activity.releases?]
  have hnotes' (x : String) : s.activity.notes? ≠ some (id, x) := fun hx => hnotes ⟨x, hx⟩
  by_cases hreleases : s.activity.releases? = some id
  · obtain ⟨p, cause, hact, rfl⟩ := Activity.releases?_eq_some hreleases
    rcases h.of_givesUp (by rw [hact]; rfl) hadmits with ⟨_, _, hact', -⟩ |
      ⟨_, cause', _, -, -, -, rfl⟩ | ⟨_, _, hact', -⟩
    · rw [hact] at hact'
      cases hact'
    · rw [Store.find?_modify_self (Row.keepsId_failed _), hr] at hr'
      cases hr'
      exact ⟨delivered, hd, fun x => by simp [hnotes' x], by simp [hreleases, Row.failed]⟩
    · rw [hact] at hact'
      cases hact'
  · have htouch := h.touch hst id
    rw [hr, hr'] at htouch
    obtain ⟨hd', hattempts⟩ := htouch.unwritten hd hnotes' hreleases
    exact ⟨delivered, hd', fun x => by simp [hnotes' x], by simp [hreleases, hattempts]⟩

end step

end Sweep

namespace Crew

def Noted (c : Crew) (ts : List Turn) (id : Int) (recipient : String) : Prop :=
  ∃ i, (i, id, recipient) ∈ c.along note? ts

/-- The number of times that the message was released after a failure. -/
def releases (c : Crew) (ts : List Turn) (id : Int) : Nat :=
  (c.along release? ts).countP fun e => e.2 == id

theorem noted_append {c : Crew} {ts us : List Turn} {id : Int} {recipient : String} :
    c.Noted (ts ++ us) id recipient ↔
      c.Noted ts id recipient ∨ (c.after ts).Noted us id recipient := by
  simp only [Noted, along_append, List.mem_append, exists_or]

theorem releases_append (c : Crew) (ts us : List Turn) (id : Int) :
    c.releases (ts ++ us) id = c.releases ts id + (c.after ts).releases us id := by
  simp only [releases, along_append, List.countP_append]

theorem noted_cons (c : Crew) (t : Turn) (ts : List Turn) (id : Int) (recipient : String) :
    c.Noted (t :: ts) id recipient ↔ c.Noted [t] id recipient ∨ (c.turn t).Noted ts id recipient := by
  rw [← List.singleton_append, noted_append, after_cons, after_nil]

theorem releases_cons (c : Crew) (t : Turn) (ts : List Turn) (id : Int) :
    c.releases (t :: ts) id = c.releases [t] id + (c.turn t).releases ts id :=
  releases_append c [t] ts id

theorem noted_singleton {c : Crew} {t : Turn} {id : Int} {recipient : String} :
    c.Noted [t] id recipient ↔ ∃ i s, t = .advance i ∧ c.sweeps[i]? = some s ∧
      s.activity.notes? = some (id, recipient) := by
  simp only [Noted, along_singleton, Option.mem_toList, note?, seeAdvance_eq_some]
  exact ⟨fun ⟨i, ht, s, hs⟩ => ⟨i, s, ht, hs⟩, fun ⟨i, s, ht, hs⟩ => ⟨i, ht, s, hs⟩⟩

theorem releases_advance {c : Crew} {i : Nat} {s : Sweep} (hs : c.sweeps[i]? = some s) (id : Int) :
    c.releases [.advance i] id = if s.activity.releases? = some id then 1 else 0 := by
  rw [releases, along_singleton]
  cases hrel : s.activity.releases? with
  | none => simp [release?, seeAdvance, hs, hrel]
  | some k => simp [release?, seeAdvance, hs, hrel, List.countP_cons]

theorem unwritten_turn {c : Crew} {t : Turn}
    (ht : ¬ ∃ i s, t = .advance i ∧ c.sweeps[i]? = some s) (id : Int) :
    (∀ x, ¬ c.Noted [t] id x) ∧ c.releases [t] id = 0 := by
  constructor
  · intro x hx
    obtain ⟨i, s, hturn, hs, -⟩ := noted_singleton.mp hx
    exact ht ⟨i, s, hturn, hs⟩
  · rw [releases, along_singleton, List.countP_eq_zero]
    intro e he
    obtain ⟨hturn, s, hs, -⟩ := seeAdvance_eq_some.mp (Option.mem_toList.mp he)
    exact absurd ⟨e.1, s, hturn, hs⟩ ht

theorem written_turn {c : Crew} (hc : c.store.WellNumbered) {id : Int} (hadmits : c.store.Admits id)
    (t : Turn) {r r' : Row} (hr : c.store.find? id = some r)
    (hr' : (c.turn t).store.find? id = some r') {delivered : List String} (hd : r.Notes delivered) :
    ∃ delivered', r'.Notes delivered' ∧
      (∀ x, x ∈ delivered' ↔ x ∈ delivered ∨ c.Noted [t] id x) ∧
      r'.attempts = r.attempts + c.releases [t] id := by
  by_cases ht : ∃ i s, t = .advance i ∧ c.sweeps[i]? = some s
  · obtain ⟨i, s, rfl, hs⟩ := ht
    obtain ⟨s', -, hstep⟩ := advance_sweep hc hs
    obtain ⟨delivered', hd', hnoted, hattempts⟩ := hstep.written hc hadmits hr hr' hd
    refine ⟨delivered', hd', fun x => ?_, ?_⟩
    · rw [hnoted, noted_singleton]
      refine or_congr_right ⟨fun h => ⟨i, s, rfl, hs, h⟩, fun ⟨j, s', hj, hs', h⟩ => ?_⟩
      cases hj
      rw [hs] at hs'
      cases hs'
      exact h
    · rw [hattempts, releases_advance hs]
      split <;> rfl
  · obtain ⟨hnoted, hreleases⟩ := unwritten_turn ht id
    have hrow := (turn_step hc t).row hc id
    rw [hr, hr'] at hrow
    generalize ho : some r' = o at hrow
    cases hrow with
    | kept =>
      cases ho
      exact ⟨delivered, hd, fun x => by simp [hnoted x], by simp [hreleases]⟩
    | cancelled => cases ho
    | touched hturn hs => exact absurd ⟨_, _, hturn, hs⟩ ht

theorem written_after {c : Crew} (hc : c.store.WellNumbered) {id : Int}
    (hadmits : c.store.Admits id) (ts : List Turn) {r r' : Row} (hr : c.store.find? id = some r)
    (hr' : (c.after ts).store.find? id = some r') {delivered : List String}
    (hd : r.Notes delivered) :
    ∃ delivered', r'.Notes delivered' ∧
      (∀ x, x ∈ delivered' ↔ x ∈ delivered ∨ c.Noted ts id x) ∧
      r'.attempts = r.attempts + c.releases ts id := by
  induction ts generalizing c r delivered with
  | nil =>
    rw [after_nil, hr] at hr'
    cases hr'
    exact ⟨delivered, hd, by simp [Noted, along], by simp [releases, along]⟩
  | cons t ts ih =>
    have hstep := turn_step hc t
    have hknown := Store.le_lastId_of_find? hc hr
    -- A row that is there in the end was there all the time.
    cases hr₁ : (c.turn t).store.find? id with
    | none =>
      rw [after_cons, absent_after (hstep.wellNumbered hc) (Int.le_trans hknown hstep.lastId_le)
        hr₁ ts] at hr'
      cases hr'
    | some r₁ =>
      obtain ⟨delivered₁, hd₁, hnoted₁, hattempts₁⟩ := written_turn hc hadmits t hr hr₁ hd
      obtain ⟨delivered', hd', hnoted', hattempts'⟩ := ih (hstep.wellNumbered hc)
        ((admits_after hc [t]).mpr hadmits) hr₁ hr' hd₁
      refine ⟨delivered', hd', fun x => ?_, ?_⟩
      · rw [hnoted', hnoted₁, or_assoc, noted_cons c t ts]
      · rw [hattempts', hattempts₁, releases_cons c t ts, Int.natCast_add, Int.add_assoc]

/-! ## Claims -/

theorem row_of_claim {c : Crew} (hc : c.store.WellNumbered) {t : Turn} {i : Nat} {id : Int}
    (hclaim : c.claim? t = some (i, id)) :
    ∃ r, c.store.find? id = some r ∧ c.store.Admits id := by
  obtain ⟨rfl, s, hs, hclaims⟩ := seeAdvance_eq_some.mp hclaim
  obtain ⟨s', -, hstep⟩ := advance_sweep hc hs
  obtain ⟨_, _, r, _, _, _, _, _, hadmits, _, hr, _⟩ := hstep.of_claims hclaims
  exact ⟨r, hr, hadmits⟩

/-- A sweep calls the messenger for a recipient that its listing did not note. -/
theorem listed_of_call {c : Crew} (hc : c.store.WellNumbered) {policy : Policy}
    {now : Calendar.Moment} {ts : List Turn} {call : Call}
    (hcall : call ∈ (c.turn (.join policy now)).along call? ts)
    (hsweep : call.sweep = c.sweeps.length) :
    ∃ x r delivered, call.payload.recipients = [x] ∧ c.store.find? call.id = some r ∧
      r.Notes delivered ∧ x ∉ delivered ∧ r.attempts < policy.retryLimit := by
  obtain ⟨us, t, vs, rfl, hanswer⟩ := mem_along hcall
  obtain ⟨-, s, p, x, rest, receipts, hs, hact, hid, hpayload⟩ := call?_eq_some hanswer
  obtain ⟨s', hs', hrecalls⟩ := recalls_join hc policy now us
  rw [after_cons, ← hsweep, hs] at hs'
  cases hs'
  have hlisted := hrecalls.activity
  rw [hact] at hlisted
  obtain ⟨hp, hremaining⟩ := hlisted
  obtain ⟨r, hr, hpending, hattempts⟩ := (Sweep.list_due hc policy now).2 p hp
  obtain ⟨-, -, -, -, -, hd⟩ := Row.pending_ok hpending
  have hx := (List.mem_filter.mp (hremaining x List.mem_cons_self)).2
  exact ⟨x, r, p.delivered, by rw [hpayload], hid ▸ hr, hd, by simpa using hx, hattempts⟩

/-- A sweep that begins after the turns `us` claims a message, and later calls the messenger for it.
The recipient is missing from the row that was claimed exactly if it was not noted since the sweep
began, and the row may be tried once more exactly if it was not released too often since. -/
theorem claim_is_current_iff (c : Crew) (hc : c.IsFresh) (us vs ws : List Turn) (policy : Policy)
    (now : Calendar.Moment) (t : Turn) (call : Call)
    (hsweep : call.sweep = (c.after us).sweeps.length)
    (hclaim : (c.after (us ++ .join policy now :: vs)).claim? t = some (call.sweep, call.id))
    (hcall : call ∈ (c.after (us ++ .join policy now :: vs ++ [t])).along call? ws) :
    ∃ x listed claimed delivered, call.payload.recipients = [x] ∧
      (c.after us).store.find? call.id = some listed ∧ listed.attempts < policy.retryLimit ∧
      (c.after (us ++ .join policy now :: vs)).store.find? call.id = some claimed ∧
      claimed.Notes delivered ∧
      (x ∉ delivered ↔ ¬ (c.after us).Noted (.join policy now :: vs) call.id x) ∧
      (claimed.attempts < policy.retryLimit ↔
        listed.attempts + (c.after us).releases (.join policy now :: vs) call.id <
          policy.retryLimit) := by
  have hus := wellNumbered_after hc.wellNumbered us
  have hvs := wellNumbered_after hc.wellNumbered (us ++ .join policy now :: vs)
  obtain ⟨claimed, hclaimed, hadmits⟩ := row_of_claim hvs hclaim
  have hcall' : call ∈ ((c.after us).turn (.join policy now)).along call? (vs ++ [t] ++ ws) := by
    rw [along_append]
    exact List.mem_append_right _ (by simpa using hcall)
  obtain ⟨x, listed, noted, hrecipients, hlisted, hnoted, hx, hattempts⟩ :=
    listed_of_call hus hcall' hsweep
  rw [after_append] at hclaimed hadmits
  obtain ⟨delivered, hd, hmem, hcount⟩ := written_after hus ((admits_after hus _).mp hadmits)
    (.join policy now :: vs) hlisted hclaimed hnoted
  refine ⟨x, listed, claimed, delivered, hrecipients, hlisted, hattempts,
    by rw [after_append, hclaimed], hd, ?_, by rw [hcount]⟩
  rw [hmem]
  simp [hx]

/-! ## Two sweeps that overlap -/

def twoMessages : List Turn :=
  [.dispatch ⟨.text "First", .text "Hello", ["ann"]⟩ (.int 5) .null,
    .dispatch ⟨.text "Second", .text "Hello", ["bob", "cid"]⟩ (.int 6) .null,
    .setClock oneOClock]

/-- While the first sweep sends the first message, another one reaches the first recipient of the
second message and fails at the other one. -/
def overlap : List Turn :=
  [.advance 0, .join thrice (.ofInstant oneOClock), .advance 1, .answer 1 (.ok "b"), .advance 1,
    .answer 1 (.error (.collaborator .runtime [.text "down"])), .advance 1,
    .answer 0 (.ok "a"), .advance 0, .advance 0, .advance 0]

/-- The crew when the first sweep has listed both messages. -/
def bothListed : Crew :=
  let c := (idle noon).after twoMessages
  { c with sweeps := [⟨thrice, c.store.rows.filterMap fun r => r.pending.toOption, 0, .taking⟩] }

theorem after_twoMessages_join :
    ((idle noon).after twoMessages).turn (.join thrice (.ofInstant oneOClock)) = bothListed := by
  have hsorted : ((idle noon).after twoMessages).desk.store.rows.Pairwise
      fun r r' => Store.scheduledBefore r r' = true := by decide +kernel
  have hlist : ((idle noon).after twoMessages).desk.store.listDue (.ofInstant oneOClock)
      thrice.retryLimit Sweep.listLimit thrice.lease =
        .ok (((idle noon).after twoMessages).store.rows.filterMap fun r => r.pending.toOption) := by
    refine eq_ok_of_toOption ?_
    simp only [Store.listDue, Store.dueRows_of_sorted hsorted]
    decide +kernel
  rw [turn, Sweep.list, hlist]
  rfl

theorem after_overlap :
    (idle noon).after (twoMessages ++ .join thrice (.ofInstant oneOClock) :: overlap) =
      bothListed.after overlap := by
  rw [after_append, after_cons, after_twoMessages_join]

theorem claim_is_current_iff_overlap :
    ∃ call : Call, call.sweep = 0 ∧ call.id = 2 ∧
      ∃ x listed claimed delivered, call.payload.recipients = [x] ∧
        ((idle noon).after twoMessages).store.find? call.id = some listed ∧
        listed.attempts < thrice.retryLimit ∧
        ((idle noon).after
          (twoMessages ++ .join thrice (.ofInstant oneOClock) :: overlap)).store.find? call.id =
            some claimed ∧
        claimed.Notes delivered ∧
        (x ∉ delivered ↔ ¬ ((idle noon).after twoMessages).Noted
          (.join thrice (.ofInstant oneOClock) :: overlap) call.id x) ∧
        (claimed.attempts < thrice.retryLimit ↔
          listed.attempts + ((idle noon).after twoMessages).releases
            (.join thrice (.ofInstant oneOClock) :: overlap) call.id < thrice.retryLimit) := by
  have hseen : ((0, 2) : Nat × Int) ∈ ((bothListed.after (overlap ++ [.advance 0])).along call?
      [.answer 0 (.ok "c")]).map fun call => (call.sweep, call.id) := by decide +kernel
  obtain ⟨call, hcall, hcalled⟩ := List.mem_map.mp hseen
  obtain ⟨hsweep, hid⟩ := Prod.mk.inj hcalled
  refine ⟨call, hsweep, hid, ?_⟩
  refine claim_is_current_iff (idle noon) (isFresh_idle noon) twoMessages overlap
    [.answer 0 (.ok "c")] thrice (.ofInstant oneOClock) (.advance 0) call hsweep ?_ ?_
  · rw [hsweep, hid, after_overlap]
    decide +kernel
  · rw [after_append, after_overlap, ← after_append]
    exact hcall

/-- The first sweep calls the messenger for a recipient that the row noted when it was claimed. -/
theorem overlapping_sweeps_send_again :
    (∀ t ∈ twoMessages ++ .join thrice (.ofInstant oneOClock) :: overlap, t.LeaseOff) ∧
      ((idle noon).after (twoMessages ++ .join thrice (.ofInstant oneOClock) :: overlap)).claim?
        (.advance 0) = some (0, 2) ∧
      (((idle noon).after
        (twoMessages ++ .join thrice (.ofInstant oneOClock) :: overlap)).store.find? 2).map
          (·.deliveredJson) = some "[\"bob\"]" ∧
      (((idle noon).after
        (twoMessages ++ .join thrice (.ofInstant oneOClock) :: overlap ++ [.advance 0])).along call?
          [.answer 0 (.ok "c")]).map
            (fun call => (call.sweep, call.id, call.payload.recipients)) = [(0, 2, ["bob"])] := by
  rw [after_append _ (_ ++ _) _, after_overlap]
  refine ⟨?_, by decide +kernel, by decide +kernel, by decide +kernel⟩
  simp [twoMessages, overlap, thrice, Turn.LeaseOff, Lease.isOff]

end Crew

end Courier.Outbox
