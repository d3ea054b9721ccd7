import Courier.Proofs.Crew.Listing
import Courier.Proofs.Crew.NoLoss

/-!
# Resuming a message

A sweep that no other one interferes with goes on where the message was left: it calls the messenger
for the recipients that the row does not note, in their order, up to the first failure, and leaves
a row that notes those that were reached. So the list of a row is all that has to be remembered.
-/

namespace Courier.Outbox

open Message (Payload)

def Row.messageTo (r : Row) (recipient : String) : Payload :=
  ⟨.text r.title, .text r.body, [recipient]⟩

/-! ## Progress with a message -/

namespace Pending

/-- The calls of the messenger for some recipients, and whether they succeed. -/
def calls (p : Pending) (ok : Bool) (recipients : List String) : List (Payload × Bool) :=
  recipients.map fun x => (⟨.text p.title, .text p.body, [x]⟩, ok)

theorem calls_append (p : Pending) (ok : Bool) (xs ys : List String) :
    p.calls ok (xs ++ ys) = p.calls ok xs ++ p.calls ok ys :=
  List.map_append

/-- What is left of a message after a sweep, and the calls that the sweep made for it. -/
inductive Ended (p : Pending) : Option Row → List (Payload × Bool) → Prop where
  | delivered : Ended p none (p.calls true p.remaining)
  | interrupted {r : Row} {reached rest : List String} {x : String}
    (htodo : p.remaining = reached ++ x :: rest)
    (hr : r.Notes (p.delivered ++ reached.eraseDups)) :
    Ended p (some r) (p.calls true reached ++ p.calls false [x])

/-- What a sweep does next with a message, its row, and the calls made for it so far. -/
inductive Progress (p : Pending) : Activity → Option Row → List (Payload × Bool) → Prop where
  | sending {r : Row} {reached rest receipts : List String} {x : String}
    (htodo : p.remaining = reached ++ x :: rest)
    (hr : r.Notes (p.delivered ++ reached.eraseDups)) :
    Progress p (.sending p x rest receipts) (some r) (p.calls true reached)
  | noting {r : Row} {reached rest receipts : List String} {x : String}
    (htodo : p.remaining = reached ++ x :: rest)
    (hr : r.Notes (p.delivered ++ reached.eraseDups)) :
    Progress p (.noting p x rest receipts) (some r) (p.calls true (reached ++ [x]))
  | completing {r : Row} {receipts : List String} :
    Progress p (.completing p receipts) (some r) (p.calls true p.remaining)
  | releasing {r : Row} {made : List (Payload × Bool)} (cause : Failure)
    (h : p.Ended (some r) made) : Progress p (.releasing p cause) (some r) made
  | returning {r : Row} {made : List (Payload × Bool)} (cause : Failure)
    (h : p.Ended (some r) made) : Progress p (.returning p cause) (some r) made
  | ended {a : Activity} {o : Option Row} {made : List (Payload × Bool)}
    (ha : a.holding? ≠ some p.id) (h : p.Ended o made) : Progress p a o made

section progress
variable {p : Pending} {r : Row} {reached rest receipts : List String}
  {made : List (Payload × Bool)}

theorem progress_toNext (htodo : p.remaining = reached ++ rest)
    (hr : r.Notes (p.delivered ++ reached.eraseDups)) :
    p.Progress (.toNext p receipts rest) (some r) (p.calls true reached) := by
  cases rest with
  | nil =>
    rw [List.append_nil] at htodo
    exact htodo ▸ .completing
  | cons x rest => exact .sending htodo hr

/-- Noting the next recipient keeps the order in which they were reached first. -/
theorem withNoted_reached {x : String} (htodo : p.remaining = reached ++ x :: rest) :
    Row.withNoted (p.delivered ++ reached.eraseDups) x =
      p.delivered ++ (reached ++ [x]).eraseDups := by
  have hx : x ∉ p.delivered := by
    have hmem : x ∈ p.remaining := by simp [htodo]
    simpa using (List.mem_filter.mp hmem).2
  rw [List.eraseDups_append, Row.withNoted]
  by_cases hreached : x ∈ reached
  · simp [hx, hreached, List.removeAll]
  · simp [hx, hreached, List.removeAll, List.eraseDups_cons]

theorem Ended.of_delivered_eq {r' : Row} (h : p.Ended (some r) made)
    (hr' : r'.deliveredJson = r.deliveredJson) : p.Ended (some r') made := by
  cases h with
  | interrupted htodo hr => exact .interrupted htodo (by rwa [Row.Notes, hr'])

variable {s s' : Sweep} {d : Desk} {st' : Store}

theorem Progress.ended_of_outcome {o : Option Row} (h : p.Progress s.activity o made)
    (hover : s.outcome?.isSome = true) : p.Ended o made := by
  obtain ⟨f, hact⟩ := Sweep.ended_of_over hover
  rw [hact] at h
  cases h with
  | ended _ hended => exact hended

theorem Ended.step {o : Option Row} (h : p.Ended o made) (hrow : d.store.find? p.id = o)
    (hstep : s.Step d s' st') (hst : d.store.WellNumbered)
    (hholding : s.activity.holding? ≠ some p.id) (hdue : p.id ∉ s.due.map (·.id)) :
    p.Progress s'.activity (st'.find? p.id) made := by
  have hclaims : s.claims? d ≠ some p.id := by
    intro hclaims
    obtain ⟨q, due, _, _, _, _, hdue', hid, _⟩ := hstep.of_claims hclaims
    exact hdue (by simp [hdue', hid])
  rw [(hstep.touch hst p.id).eq_of_not_holding hholding hclaims, hrow]
  refine .ended (fun hholding' => ?_) h
  rcases hstep.holding hholding' with hclaims' | ⟨hholding', -⟩
  · exact hclaims hclaims'
  · exact hholding hholding'

theorem Progress.step (h : p.Progress s.activity (d.store.find? p.id) made)
    (hstep : s.Step d s' st') (hst : d.store.WellNumbered) (hadmits : d.store.Admits p.id)
    (hdue : p.id ∉ s.due.map (·.id)) :
    p.Progress s'.activity (st'.find? p.id) made := by
  have hwaiting (hbusy : s.isBusy = false) : p.Progress s'.activity (st'.find? p.id) made := by
    obtain ⟨rfl, rfl⟩ := hstep.of_not_busy hbusy
    exact h
  generalize hact : s.activity = a at h
  generalize hrow : d.store.find? p.id = o at h
  -- The store admits the message, so an operation on it does what it is for.
  cases h with
  | sending => exact hwaiting (by rw [Sweep.isBusy, hact])
  | noting htodo hr =>
    obtain ⟨rfl, rfl⟩ := hstep.of_noting hact hadmits hrow hr
    rw [Store.find?_modify_self (Row.keepsId_noted _ _), hrow]
    refine progress_toNext (by rw [htodo, List.append_assoc]; rfl) ?_
    exact withNoted_reached htodo ▸ Row.notes_noted hr _
  | completing =>
    rcases hstep.of_givesUp (by rw [hact]; rfl) hadmits with ⟨_, _, -, -, rfl, rfl⟩ |
      ⟨_, _, _, hact', -⟩ | ⟨_, _, hact', -⟩
    · have hgone : (d.store.remove fun r => r.id == p.id).find? p.id = none :=
        Store.find?_eq_none_iff.mpr fun r hr => by simpa using (List.mem_filter.mp hr).2
      rw [hgone]
      exact .ended (fun hholding => by cases hholding) .delivered
    · rw [hact] at hact'
      cases hact'
    · rw [hact] at hact'
      cases hact'
  | releasing cause hended =>
    rcases hstep.of_givesUp (by rw [hact]; rfl) hadmits with ⟨_, _, hact', -⟩ |
      ⟨_, cause', _, -, -, rfl, rfl⟩ | ⟨_, _, hact', -⟩
    · rw [hact] at hact'
      cases hact'
    · rw [Store.find?_modify_self (Row.keepsId_failed _), hrow]
      exact .ended (fun hholding => by cases hholding) (hended.of_delivered_eq rfl)
    · rw [hact] at hact'
      cases hact'
  | returning cause hended =>
    rcases hstep.of_givesUp (by rw [hact]; rfl) hadmits with ⟨_, _, hact', -⟩ |
      ⟨_, _, _, hact', -⟩ | ⟨_, _, -, -, rfl, rfl⟩
    · rw [hact] at hact'
      cases hact'
    · rw [hact] at hact'
      cases hact'
    · rw [Store.find?_modify_self Row.keepsId_freed, hrow]
      exact .ended (fun hholding => by cases hholding) (hended.of_delivered_eq rfl)
  | ended hholding hended => exact hended.step hrow hstep hst (hact ▸ hholding) hdue

theorem Progress.answered_sending {o : Option Row} {x : String} (h : p.Progress s.activity o made)
    (hact : s.activity = .sending p x rest receipts) (answer : Except Failure String) (d : Desk) :
    p.Progress (s.answered answer d).2.activity o (made ++ p.calls answer.isOk [x]) := by
  rw [hact] at h
  cases h with
  | sending htodo hr =>
    cases answer with
    | ok receipt =>
      rw [Sweep.answered_ok hact]
      exact calls_append p true _ [x] ▸ .noting htodo hr
    | error f =>
      have hended := Ended.interrupted htodo hr
      rw [Sweep.answered_error hact]
      dsimp only [Sweep.turnTo]
      split
      · exact .returning f hended
      · exact .releasing f hended
  | ended hholding => exact absurd rfl hholding

theorem Progress.answered_other {o : Option Row} (h : p.Progress s.activity o made)
    (hact : ∀ q x rest receipts, s.activity = .sending q x rest receipts → q.id ≠ p.id)
    (answer : Except Failure String) (d : Desk) :
    p.Progress (s.answered answer d).2.activity o made := by
  have hbusy (hbusy : s.isBusy = true) : p.Progress (s.answered answer d).2.activity o made := by
    rw [Sweep.answered_of_busy hbusy]
    exact h
  generalize ha : s.activity = a at h
  cases h with
  | sending => exact absurd rfl (hact _ _ _ _ ha)
  | noting | completing | releasing | returning => exact hbusy (by rw [Sweep.isBusy, ha])
  | ended hholding hended =>
    exact .ended (fun hholding' => hholding (ha ▸ Sweep.answered_holding hholding')) hended

end progress

end Pending

/-! ## Turns of a single sweep -/

/-- No turn of another sweep, and no cancellation. -/
structure Turn.Alone (i : Nat) (t : Turn) : Prop where
  sweep : ∀ j, t.sweep? = some j → j = i
  isCancel : t.isCancel = false

namespace Crew

/-- The calls of the messenger for a message, and whether they succeed. -/
def calls (c : Crew) (ts : List Turn) (id : Int) : List (Payload × Bool) :=
  ((c.along call? ts).filter fun call => call.id == id).map fun call =>
    (call.payload, call.answer.isOk)

theorem calls_append (c : Crew) (ts us : List Turn) (id : Int) :
    c.calls (ts ++ us) id = c.calls ts id ++ (c.after ts).calls us id := by
  simp only [calls, along_append, List.filter_append, List.map_append]

theorem calls_cons (c : Crew) (t : Turn) (ts : List Turn) (id : Int) :
    c.calls (t :: ts) id = c.calls [t] id ++ (c.turn t).calls ts id :=
  calls_append c [t] ts id

theorem calls_eq_nil {c : Crew} {t : Turn} {id : Int}
    (h : ∀ call, c.call? t = some call → call.id ≠ id) : c.calls [t] id = [] := by
  rw [calls, along_singleton, List.filter_eq_nil_iff.mpr, List.map_nil]
  intro call hcall
  simpa using h call (Option.mem_toList.mp hcall)

section turns
variable {c : Crew} {t : Turn} {i : Nat} {s s' : Sweep} {id : Int} {listed : List Pending}

/-- While only one sweep acts, nobody else changes a row. -/
theorem row_turn_alone (hc : c.store.WellNumbered) (ht : t.Alone i) (hknown : id ≤ c.store.lastId)
    (hs : c.sweeps[i]? = some s) :
    (c.turn t).store.find? id = c.store.find? id ∨
      (t = .advance i ∧ s.Touch c.desk id (c.store.find? id) ((c.turn t).store.find? id)) := by
  have hrow := (turn_step hc t).row hc id
  generalize (c.turn t).store.find? id = o' at hrow
  generalize c.store.find? id = o at hrow
  cases hrow with
  | kept => exact Or.inl rfl
  | stored _ _ hnew => omega
  | cancelled hcancel =>
    rw [ht.isCancel] at hcancel
    cases hcancel
  | @touched j s₂ _ _ hturn hs₂ htouch =>
    obtain rfl : j = i := ht.sweep j (by rw [hturn]; rfl)
    rw [hs] at hs₂
    cases hs₂
    exact Or.inr ⟨hturn, htouch⟩

theorem sending_of_call (ht : t.Alone i) (hs : c.sweeps[i]? = some s) {call : Call}
    (hcall : c.call? t = some call) :
    ∃ p x rest receipts, t = .answer i call.answer ∧ s.activity = .sending p x rest receipts ∧
      call.id = p.id ∧ call.payload = ⟨.text p.title, .text p.body, [x]⟩ := by
  obtain ⟨hturn, s₂, p, x, rest, receipts, hs₂, hact, hid, hpayload⟩ := call?_eq_some hcall
  obtain hi : call.sweep = i := ht.sweep call.sweep (by rw [hturn]; rfl)
  rw [hi] at hs₂ hturn
  rw [hs] at hs₂
  cases hs₂
  exact ⟨p, x, rest, receipts, hturn, hact, hid, hpayload⟩

theorem calls_turn_of_not_holding (ht : t.Alone i) (hs : c.sweeps[i]? = some s)
    (hholding : s.activity.holding? ≠ some id) : c.calls [t] id = [] := by
  refine calls_eq_nil fun call hcall hid => hholding ?_
  obtain ⟨p, x, rest, receipts, -, hact, hp, -⟩ := sending_of_call ht hs hcall
  rw [hact, ← hid, hp]
  rfl

/-- Before the sweep takes a message nothing happens to it. -/
theorem ahead_turn (hc : c.store.WellNumbered) (ht : t.Alone i) (hknown : id ≤ c.store.lastId)
    (hs : c.sweeps[i]? = some s) (hrecalls : s.Recalls listed)
    (hs' : (c.turn t).sweeps[i]? = some s') (hid : id ∈ s'.due.map (·.id)) :
    (c.turn t).store.find? id = c.store.find? id ∧ c.calls [t] id = [] := by
  obtain ⟨s₂, hs₂, -, hdue⟩ := recalls_turn hc hs hrecalls t
  rw [hs'] at hs₂
  cases hs₂
  have hholding : s.activity.holding? ≠ some id := fun hholding =>
    hrecalls.ahead id hholding ((hdue.sublist.map _).subset hid)
  refine ⟨?_, calls_turn_of_not_holding ht hs hholding⟩
  rcases row_turn_alone hc ht hknown hs with hrow | ⟨rfl, htouch⟩
  · exact hrow
  refine htouch.eq_of_not_holding hholding fun hclaims => ?_
  obtain ⟨s₃, hsweeps, hstep⟩ := advance_sweep hc hs
  obtain ⟨p, due, _, _, _, -, hdue', rfl, -, -, -, -, rfl, -⟩ := hstep.of_claims hclaims
  have hi := (List.getElem?_eq_some_iff.mp hs).1
  rw [hsweeps, List.getElem?_set_self hi] at hs'
  cases hs'
  have hnodup := hrecalls.nodup
  rw [hdue', List.map_cons, List.nodup_cons] at hnodup
  exact hnodup.1 hid

theorem ahead_after (hc : c.store.WellNumbered) {ts : List Turn} (hts : ∀ t ∈ ts, t.Alone i)
    (hknown : id ≤ c.store.lastId) (hs : c.sweeps[i]? = some s) (hrecalls : s.Recalls listed)
    (hs' : (c.after ts).sweeps[i]? = some s') (hid : id ∈ s'.due.map (·.id)) :
    (c.after ts).store.find? id = c.store.find? id ∧ c.calls ts id = [] := by
  induction ts generalizing c s with
  | nil => exact ⟨rfl, rfl⟩
  | cons t ts ih =>
    have hstep := turn_step hc t
    have hc₁ := hstep.wellNumbered hc
    obtain ⟨s₁, hs₁, hrecalls₁, -⟩ := recalls_turn hc hs hrecalls t
    obtain ⟨s₂, hs₂, -, hdue⟩ := recalls_after hc₁ hs₁ hrecalls₁ ts
    rw [after_cons, hs₂] at hs'
    cases hs'
    obtain ⟨hrow, hcalls⟩ := ahead_turn hc (hts t List.mem_cons_self) hknown hs hrecalls hs₁
      ((hdue.sublist.map _).subset hid)
    obtain ⟨hrow', hcalls'⟩ := ih hc₁ (fun u hu => hts u (List.mem_cons_of_mem _ hu))
      (Int.le_trans hknown hstep.lastId_le) hs₁ hrecalls₁ hs₂
    exact ⟨hrow'.trans hrow, by rw [calls_cons, hcalls, hcalls', List.append_nil]⟩

theorem progress_answer {p : Pending} {o : Option Row} {made : List (Payload × Bool)}
    (h : p.Progress s.activity o made) (hs : c.sweeps[i]? = some s)
    (answer : Except Failure String) :
    p.Progress (s.answered answer c.desk).2.activity o (made ++ c.calls [.answer i answer] p.id) := by
  by_cases hact : ∃ q x rest receipts, s.activity = .sending q x rest receipts ∧ q.id = p.id
  · obtain ⟨q, x, rest, receipts, hact, hid⟩ := hact
    have hq : q = p := by
      rw [hact] at h
      cases h with
      | sending => rfl
      | ended hholding => exact absurd (by simp [Activity.holding?, hid]) hholding
    subst hq
    have hcalls : c.calls [.answer i answer] q.id = q.calls answer.isOk [x] := by
      simp [calls, along_singleton, call?, hs, hact, Sweep.request?, Pending.calls]
    rw [hcalls]
    exact h.answered_sending hact answer c.desk
  · have hother (q : Pending) (x : String) (rest receipts : List String)
        (hsending : s.activity = .sending q x rest receipts) : q.id ≠ p.id :=
      fun hid => hact ⟨q, x, rest, receipts, hsending, hid⟩
    have hcalls : c.calls [.answer i answer] p.id = [] := calls_eq_nil fun call hcall => by
      obtain ⟨hturn, s₂, q, x, rest, receipts, hs₂, hsending, hid, -⟩ := call?_eq_some hcall
      cases hturn
      rw [hs] at hs₂
      cases hs₂
      exact hid ▸ hother q x rest receipts hsending
    rw [hcalls, List.append_nil]
    exact h.answered_other hother answer c.desk

/-- The sweep claimed the message and made these calls for it. -/
structure AtWork (c : Crew) (i : Nat) (p : Pending) (made : List (Payload × Bool)) : Prop where
  wellNumbered : c.store.WellNumbered
  known : p.id ≤ c.store.lastId
  admits : c.store.Admits p.id
  sweep : ∃ s, c.sweeps[i]? = some s ∧ p.id ∉ s.due.map (·.id) ∧
    p.Progress s.activity (c.store.find? p.id) made

theorem AtWork.turn {p : Pending} {made : List (Payload × Bool)} (h : c.AtWork i p made)
    (ht : t.Alone i) : (c.turn t).AtWork i p (made ++ c.calls [t] p.id) := by
  have hc := h.wellNumbered
  have hstep := turn_step hc t
  refine ⟨hstep.wellNumbered hc, Int.le_trans h.known hstep.lastId_le,
    (admits_after hc [t]).mpr h.admits, ?_⟩
  obtain ⟨s, hs, hdue, hprogress⟩ := h.sweep
  obtain ⟨s', hs', hsweep⟩ := hstep.sweepTurn hs
  refine ⟨s', hs', ?_⟩
  cases hsweep with
  | kept hturn =>
    have hcalls : c.calls [t] p.id = [] := calls_eq_nil fun call hcall => by
      obtain ⟨_, _, _, _, rfl, -⟩ := sending_of_call ht hs hcall
      exact absurd rfl hturn
    rw [hcalls, List.append_nil]
    rcases row_turn_alone hc ht h.known hs with hrow | ⟨rfl, -⟩
    · exact ⟨hdue, hrow ▸ hprogress⟩
    · exact absurd rfl hturn
  | advanced hturn hadvance =>
    subst hturn
    have hcalls : c.calls [.advance i] p.id = [] := calls_eq_nil fun call hcall => by cases hcall
    rw [hcalls, List.append_nil]
    exact ⟨fun hmem => hdue ((hadvance.due_suffix.sublist.map _).subset hmem),
      hprogress.step hadvance hc h.admits hdue⟩
  | answered answer hturn =>
    subst hturn
    rw [Sweep.answered_due]
    refine ⟨hdue, ?_⟩
    rcases row_turn_alone hc ht h.known hs with hrow | ⟨hturn, -⟩
    · rw [hrow]
      exact progress_answer hprogress hs answer
    · cases hturn

theorem AtWork.after {p : Pending} {made : List (Payload × Bool)} (h : c.AtWork i p made)
    {ts : List Turn} (hts : ∀ t ∈ ts, t.Alone i) :
    (c.after ts).AtWork i p (made ++ c.calls ts p.id) := by
  induction ts generalizing c made with
  | nil =>
    rw [show c.calls [] p.id = [] from rfl, List.append_nil]
    exact h
  | cons t ts ih =>
    have h' := ih (h.turn (hts t List.mem_cons_self)) fun u hu => hts u (List.mem_cons_of_mem _ hu)
    rwa [List.append_assoc, ← calls_cons] at h'

theorem atWork_claim (hc : c.store.WellNumbered) (hs : c.sweeps[i]? = some s)
    (hrecalls : s.Recalls listed) (hclaims : s.claims? c.desk = some id) :
    ∃ p ∈ s.due, p.id = id ∧ ∀ r, c.store.find? id = some r → r.Notes p.delivered →
      (c.turn (.advance i)).AtWork i p [] := by
  obtain ⟨s', hsweeps, hstep⟩ := advance_sweep hc hs
  obtain ⟨p, due, r, _, claimedAt, -, hdue, rfl, hadmits, -, hr, -, rfl, hst⟩ :=
    hstep.of_claims hclaims
  refine ⟨p, by simp [hdue], rfl, fun r' hr' hd => ?_⟩
  cases hr.symm.trans hr'
  have hturn := turn_step hc (.advance i)
  have hnodup := hrecalls.nodup
  rw [hdue, List.map_cons, List.nodup_cons] at hnodup
  have hknown := Store.le_lastId_of_find? hc hr
  refine ⟨hturn.wellNumbered hc, Int.le_trans hknown hturn.lastId_le,
    (admits_after hc [.advance i]).mpr hadmits,
    { s with due, activity := .toNext p [] p.remaining }, ?_, hnodup.1, ?_⟩
  · rw [hsweeps, List.getElem?_set_self (List.getElem?_eq_some_iff.mp hs).1]
  · have hrow : (c.turn (.advance i)).store.find? p.id = some (r.claimed claimedAt) := by
      rw [hst, Store.find?_modify_self (Row.keepsId_claimed claimedAt)]
      exact congrArg _ hr
    rw [hrow]
    have hnotes : (r.claimed claimedAt).Notes (p.delivered ++ [].eraseDups) := by
      rw [List.eraseDups_nil, List.append_nil]
      exact hd
    exact Pending.progress_toNext (List.nil_append _).symm hnotes

end turns

/-- Up to the claim of a message nothing happens to it, so the row is the one that was listed. -/
theorem exists_atWork {c : Crew} (hc : c.store.WellNumbered) {policy : Policy}
    {now : Calendar.Moment} {ts : List Turn} {id : Int}
    (halone : ∀ t ∈ ts, t.Alone c.sweeps.length)
    (hclaim : (c.sweeps.length, id) ∈ c.along claim? (.join policy now :: ts)) :
    ∃ p ∈ (Sweep.list policy now c.desk).due, p.id = id ∧ ∃ us vs, ts = us ++ vs ∧
      (c.after (.join policy now :: us)).AtWork c.sweeps.length p [] ∧
      c.calls (.join policy now :: us) id = [] := by
  have hc₁ := (turn_step hc (.join policy now)).wellNumbered hc
  have hlist := Sweep.recalls_list hc policy now
  have hjoin : (c.turn (.join policy now)).sweeps[c.sweeps.length]? =
      some (Sweep.list policy now c.desk) := by simp [turn]
  -- The turn of the claim splits the run: before it the message was ahead of the sweep.
  obtain ⟨us, t, vs, hts, hclaim⟩ := mem_along hclaim
  obtain ⟨rfl, s, hs, hclaims⟩ := seeAdvance_eq_some.mp hclaim
  cases us with
  | nil => cases hts
  | cons t us =>
    rw [List.cons_append, List.cons.injEq] at hts
    obtain ⟨rfl, rfl⟩ := hts
    obtain ⟨s₂, hs₂, hrecalls, -⟩ := recalls_after hc₁ hjoin hlist us
    cases hs.symm.trans hs₂
    obtain ⟨p, hp, rfl, hwork⟩ := atWork_claim (wellNumbered_after hc₁ us) hs₂ hrecalls hclaims
    have hlisted := hrecalls.due.subset hp
    obtain ⟨r, hr, hpending, -⟩ := (Sweep.list_due hc policy now).2 p hlisted
    obtain ⟨-, -, -, -, -, hd⟩ := Row.pending_ok hpending
    obtain ⟨hrow, hnone⟩ := ahead_after hc₁ (fun u hu => halone u (List.mem_append_left _ hu))
      (Store.le_lastId_of_find? hc hr) hjoin hlist hs₂ (List.mem_map_of_mem hp)
    refine ⟨p, hlisted, rfl, us ++ [.advance c.sweeps.length], vs, by simp, ?_, ?_⟩
    · rw [after_cons, after_append]
      exact hwork r (hrow.trans hr) hd
    · have hcalls (c' : Crew) (i : Nat) : c'.calls [.advance i] p.id = [] :=
        calls_eq_nil fun call hcall => by cases hcall
      have hjoined : c.calls [.join policy now] p.id = [] :=
        calls_eq_nil fun call hcall => by cases hcall
      rw [calls_cons, hjoined, calls_append, hnone, hcalls]
      rfl

/-- A sweep that acts alone, claims a message and comes to its end has ended its work on it. -/
theorem ended_after_sweep {c : Crew} (hc : c.store.WellNumbered) {policy : Policy}
    {now : Calendar.Moment} {ts : List Turn} {id : Int}
    (halone : ∀ t ∈ ts, t.Alone c.sweeps.length)
    (hclaim : (c.sweeps.length, id) ∈ c.along claim? (.join policy now :: ts))
    (hover : ∃ s, (c.after (.join policy now :: ts)).sweeps[c.sweeps.length]? = some s ∧
      s.outcome?.isSome = true) :
    ∃ p ∈ (Sweep.list policy now c.desk).due, p.id = id ∧
      p.Ended ((c.after (.join policy now :: ts)).store.find? id)
        (c.calls (.join policy now :: ts) id) := by
  obtain ⟨p, hp, rfl, us, vs, rfl, hstart, hnone⟩ := exists_atWork hc halone hclaim
  have hend := hstart.after fun u hu => halone u (List.mem_append_right _ hu)
  obtain ⟨s, hs, hover⟩ := hover
  rw [← List.cons_append, after_append] at hs
  obtain ⟨s', hs', -, hprogress⟩ := hend.sweep
  cases hs.symm.trans hs'
  rw [← List.cons_append, after_append, calls_append, hnone]
  exact ⟨p, hp, rfl, hprogress.ended_of_outcome hover⟩

/-- While a sweep is the only one that acts, it calls the messenger for exactly those recipients of a
message that the row does not note, in their order and up to the first failure. Without a failure
the message is gone afterwards; otherwise its row notes those that were reached, too, in the order in
which they were reached first. -/
theorem resumption_is_exact (c : Crew) (hc : c.IsFresh) (before after : List Turn) (t₀ : Turn)
    (draft : Draft) (recipients : List String) (id : Int) (st : Store)
    (hrecipients : draft.recipients = .list (recipients.map Value.text))
    (hcreate : Store.create (c.after before).desk.now draft (c.after before).store = .ok (id, st))
    (hturn : ((c.after before).turn t₀).store = st) (c₁ : Crew)
    (hc₁ : c₁ = c.after (before ++ t₀ :: after)) (policy : Policy) (now : Calendar.Moment)
    (ts : List Turn) (halone : ∀ t ∈ ts, t.Alone c₁.sweeps.length)
    (hclaim : (c₁.sweeps.length, id) ∈ c₁.along claim? (.join policy now :: ts))
    (hover : ∃ s, (c₁.after (.join policy now :: ts)).sweeps[c₁.sweeps.length]? = some s ∧
      s.outcome?.isSome = true) :
    ∃ r delivered reached rest, c₁.store.find? id = some r ∧ r.Notes delivered ∧
      recipients.filter (fun x => !delivered.contains x) = reached ++ rest ∧
      c₁.calls (.join policy now :: ts) id =
        reached.map (fun x => (r.messageTo x, true)) ++
          (rest.take 1).map (fun x => (r.messageTo x, false)) ∧
      ((c₁.after (.join policy now :: ts)).store.find? id = none ↔
        ∀ call ∈ c₁.calls (.join policy now :: ts) id, call.2 = true) ∧
      ∀ r', (c₁.after (.join policy now :: ts)).store.find? id = some r' →
        r'.Notes (delivered ++ reached.eraseDups) := by
  have hc' : c₁.store.WellNumbered := hc₁ ▸ wellNumbered_after hc.wellNumbered _
  obtain ⟨p, hp, rfl, hended⟩ := ended_after_sweep hc' halone hclaim hover
  obtain ⟨r, hr, hpending, -⟩ := (Sweep.list_due hc' policy now).2 p hp
  obtain ⟨-, htitle, hbody, -, -, hd⟩ := Row.pending_ok hpending
  have htraces := (traces_create (hc.bounded.after before) hrecipients hcreate hturn).1.after after
  rw [← after_cons, ← after_append, ← hc₁] at htraces
  obtain ⟨rfl, -⟩ := (htraces.row r hr).pending hpending
  have hcalls (ok : Bool) (xs : List String) :
      p.calls ok xs = xs.map fun x => (r.messageTo x, ok) := by
    simp only [Pending.calls, Row.messageTo, htitle, hbody]
  refine ⟨r, p.delivered, ?_⟩
  generalize (c₁.after (.join policy now :: ts)).store.find? p.id = o at hended
  generalize c₁.calls (.join policy now :: ts) p.id = made at hended
  cases hended with
  | delivered =>
    refine ⟨p.remaining, [], hr, hd, (List.append_nil _).symm, ?_, ?_, by simp⟩
    · simp [hcalls]
    · simp [Pending.calls]
  | @interrupted r' reached rest x htodo hr' =>
    refine ⟨reached, x :: rest, hr, hd, htodo, ?_, ?_, fun r'' hr'' => ?_⟩
    · simp [hcalls]
    · simp [Pending.calls]
    · cases hr''
      exact hr'

/-! ## A message that is resumed later -/

/-- One of the recipients comes twice. -/
def reminder : Draft :=
  ⟨.null, .text "Reminder", .text "See you at five.", .list (["ann", "bob", "ann"].map Value.text),
    .ofInstant noon⟩

def reminded : Crew :=
  (idle noon).after [.create reminder, .setClock oneOClock]

/-- A sweep reaches the first recipient and fails at the second. -/
def interrupted : List Turn :=
  [.advance 0, .answer 0 (.ok "receipt"), .advance 0,
    .answer 0 (.error (.collaborator .runtime [.text "down"])), .advance 0, .advance 0, .advance 0]

theorem resumption_is_exact_reminder :
    ∃ r delivered reached rest, reminded.store.find? 1 = some r ∧ r.Notes delivered ∧
      ["ann", "bob", "ann"].filter (fun x => !delivered.contains x) = reached ++ rest ∧
      reminded.calls (.join thrice (.ofInstant oneOClock) :: interrupted) 1 =
        reached.map (fun x => (r.messageTo x, true)) ++
          (rest.take 1).map (fun x => (r.messageTo x, false)) ∧
      ((reminded.after (.join thrice (.ofInstant oneOClock) :: interrupted)).store.find? 1 = none ↔
        ∀ call ∈ reminded.calls (.join thrice (.ofInstant oneOClock) :: interrupted) 1,
          call.2 = true) ∧
      ∀ r', (reminded.after (.join thrice (.ofInstant oneOClock) :: interrupted)).store.find? 1 =
          some r' →
        r'.Notes (delivered ++ reached.eraseDups) := by
  have hlength : reminded.sweeps.length = 0 := rfl
  refine resumption_is_exact (idle noon) (isFresh_idle noon) [] [.setClock oneOClock]
    (.create reminder) reminder ["ann", "bob", "ann"] 1 ((idle noon).turn (.create reminder)).store
    rfl (by rfl) rfl reminded rfl thrice (.ofInstant oneOClock) interrupted ?_ ?_ ?_
  · have hturns : ∀ t ∈ interrupted, t.sweep? = some 0 ∧ t.isCancel = false := by decide
    intro t ht
    obtain ⟨hsweep, hcancel⟩ := hturns t ht
    exact ⟨fun j hj => Option.some.inj (hj.symm.trans hsweep), hcancel⟩
  · rw [hlength]
    decide +kernel
  · rw [hlength]
    exact Option.map_eq_some_iff.mp (by decide +kernel)

end Crew

end Courier.Outbox
