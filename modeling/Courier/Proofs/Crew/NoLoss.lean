import Courier.Proofs.Crew.Steps

/-!
# No message is lost

A message that was dispatched with a delay leaves the store in one of two ways only: it is cancelled
while nobody claims it, or a sweep deletes it after each of its recipients was reached. This holds
with leases too, where several sweeps may be at work on one message: whatever a row notes, and
whatever a sweep goes by, are recipients that were reached.
-/

namespace Courier.Outbox

open Message (Payload)

/-! ## What rows and sweeps know of a message -/

/-- The row has the recipients of the message, and notes only such as were reached. -/
structure Row.Traces (r : Row) (recipients : List String) (reached : String → Prop) : Prop where
  recipients : loadList r.recipientsJson = .ok recipients
  delivered : ∃ delivered, r.Notes delivered ∧ ∀ x ∈ delivered, reached x

structure Pending.Traces (p : Pending) (recipients : List String) (reached : String → Prop) :
    Prop where
  recipients : p.recipients = recipients
  delivered : ∀ x ∈ p.delivered, reached x

/-- Each recipient of the message was reached, or comes next. -/
def Activity.Traces (id : Int) (recipients : List String) (reached : String → Prop) :
    Activity → Prop
  | sending p recipient rest _ =>
    p.id = id → ∀ x ∈ recipients, reached x ∨ x = recipient ∨ x ∈ rest
  | noting p recipient rest _ =>
    p.id = id → reached recipient ∧ ∀ x ∈ recipients, reached x ∨ x ∈ rest
  | completing p _ => p.id = id → ∀ x ∈ recipients, reached x
  | _ => True

section traces
variable {recipients : List String} {reached reached' : String → Prop} {id : Int}

theorem Row.Traces.mono {r : Row} (h : r.Traces recipients reached)
    (hle : ∀ x, reached x → reached' x) : r.Traces recipients reached' := by
  obtain ⟨delivered, hd, hreached⟩ := h.delivered
  exact ⟨h.recipients, delivered, hd, fun x hx => hle x (hreached x hx)⟩

theorem Row.Traces.pending {r : Row} (h : r.Traces recipients reached) {p : Pending}
    (hp : r.pending = .ok p) : p.Traces recipients reached := by
  obtain ⟨-, -, -, -, hrecipients, hnotes⟩ := Row.pending_ok hp
  obtain ⟨delivered, hd, hreached⟩ := h.delivered
  constructor
  · have := h.recipients.symm.trans hrecipients
    cases this
    rfl
  · have : delivered = p.delivered := by
      have := hd.symm.trans hnotes
      cases this
      rfl
    exact this ▸ hreached

theorem Row.Traces.noted {r : Row} (h : r.Traces recipients reached) {delivered : List String}
    (hd : r.Notes delivered) {recipient : String} (hr : reached recipient) :
    (r.noted delivered recipient).Traces recipients reached := by
  constructor
  · unfold Row.noted
    split <;> exact h.recipients
  · refine ⟨_, Row.notes_noted hd recipient, fun x hx => ?_⟩
    obtain ⟨delivered', hd', hreached⟩ := h.delivered
    have : delivered' = delivered := by
      have := hd'.symm.trans hd
      cases this
      rfl
    subst this
    unfold Row.withNoted at hx
    split at hx
    · exact hreached x hx
    · rcases List.mem_append.mp hx with hx | hx
      · exact hreached x hx
      · rw [List.mem_singleton.mp hx]
        exact hr

theorem Pending.Traces.mono {p : Pending} (h : p.Traces recipients reached)
    (hle : ∀ x, reached x → reached' x) : p.Traces recipients reached' :=
  ⟨h.recipients, fun x hx => hle x (h.delivered x hx)⟩

theorem Activity.Traces.mono {a : Activity} (h : a.Traces id recipients reached)
    (hle : ∀ x, reached x → reached' x) : a.Traces id recipients reached' := by
  cases a with
  | sending => exact fun hid x hx => (h hid x hx).imp_left (hle x)
  | noting => exact fun hid => ⟨hle _ (h hid).1, fun x hx => ((h hid).2 x hx).imp_left (hle x)⟩
  | completing => exact fun hid x hx => hle x (h hid x hx)
  | _ => trivial

theorem Activity.traces_toNext {p : Pending} {receipts rest : List String}
    (h : p.id = id → ∀ x ∈ recipients, reached x ∨ x ∈ rest) :
    (toNext p receipts rest).Traces id recipients reached := by
  cases rest with
  | nil => exact fun hid x hx => (h hid x hx).resolve_right List.not_mem_nil
  | cons recipient rest => exact fun hid x hx => (h hid x hx).imp_right List.mem_cons.mp

/-- A sweep that starts work on a message has all its recipients before it but those reached. -/
theorem Pending.Traces.remaining {p : Pending} (h : p.Traces recipients reached) :
    ∀ x ∈ recipients, reached x ∨ x ∈ p.remaining := by
  intro x hx
  by_cases hd : x ∈ p.delivered
  · exact Or.inl (h.delivered x hd)
  · exact Or.inr (List.mem_filter.mpr ⟨h.recipients ▸ hx, by simpa using hd⟩)

end traces

/-! ## Steps of a sweep -/

section sweep
variable {recipients : List String} {reached reached' : String → Prop} {id : Int}

theorem Sweep.Touch.traces {s : Sweep} {d : Desk} {o o' : Option Row} (h : s.Touch d id o o')
    (ho : ∀ r, o = some r → r.Traces recipients reached)
    (hs : s.activity.Traces id recipients reached) (r' : Row) (hr' : o' = some r') :
    r'.Traces recipients reached := by
  cases h with
  | kept => exact ho r' hr'
  | @claimed r cutoff claimedAt _ _ _ =>
    cases hr'
    have hr := ho r rfl
    exact ⟨hr.recipients, hr.delivered⟩
  | @noted p recipient rest receipts delivered r hact hid hd =>
    cases hr'
    rw [hact] at hs
    exact (ho r rfl).noted hd (hs hid).1
  | completed => cases hr'
  | released | returned =>
    obtain ⟨r, hr, rfl⟩ := Option.map_eq_some_iff.mp hr'
    have hr := ho r hr
    exact ⟨hr.recipients, hr.delivered⟩

theorem Sweep.Step.activity_traces {s s' : Sweep} {d : Desk} {st' : Store} (h : s.Step d s' st')
    (hdue : ∀ p ∈ s.due, p.id = id → p.Traces recipients reached)
    (hs : s.activity.Traces id recipients reached) :
    s'.activity.Traces id recipients reached := by
  cases h with
  | still => exact hs
  | finished | passed | stuck | unnoted | completed | confirmed | released | returned => trivial
  | reported _ _ hnext => rcases hnext with rfl | rfl <;> trivial
  | @claimed p due r cutoff claimedAt _ hdue' =>
    exact Activity.traces_toNext fun hid => (hdue p (by simp [hdue']) hid).remaining
  | noted hact | absent hact =>
    rw [hact] at hs
    exact Activity.traces_toNext fun hid => (hs hid).2

theorem Sweep.answered_traces {s : Sweep} (answer : Except Failure String) (d : Desk)
    (hs : s.activity.Traces id recipients reached) (hle : ∀ x, reached x → reached' x)
    (hcall : ∀ p recipient rest receipts, s.activity = .sending p recipient rest receipts →
      p.id = id → answer.isOk = true → reached' recipient) :
    (s.answered answer d).2.activity.Traces id recipients reached' := by
  unfold answered
  split
  · rename_i p recipient rest receipts receipt hact
    rw [hact] at hs
    intro hid
    have hrecipient := hcall p recipient rest receipts hact hid rfl
    refine ⟨hrecipient, fun x hx => ?_⟩
    rcases hs hid x hx with hx | rfl | hx
    · exact Or.inl (hle x hx)
    · exact Or.inl hrecipient
    · exact Or.inr hx
  · dsimp only [turnTo]
    split <;> trivial
  · trivial
  · split <;> trivial
  · exact hs.mono hle

end sweep

namespace Crew

/-! ## Turns -/

/-- The row of the message and the sweeps know of it what is true. -/
structure Traces (c : Crew) (id : Int) (recipients : List String) (reached : String → Prop) :
    Prop where
  wellNumbered : c.store.WellNumbered
  known : id ≤ c.store.lastId
  row : ∀ r, c.store.find? id = some r → r.Traces recipients reached
  due : ∀ (i : Nat) (s : Sweep), c.sweeps[i]? = some s → ∀ p ∈ s.due, p.id = id →
    p.Traces recipients reached
  activity : ∀ (i : Nat) (s : Sweep), c.sweeps[i]? = some s →
    s.activity.Traces id recipients reached

def Reached (c : Crew) (ts : List Turn) (id : Int) (recipient : String) : Prop :=
  ∃ call ∈ c.along call? ts, call.id = id ∧ call.payload.recipients = [recipient] ∧
    call.answer.isOk = true

theorem reached_append {c : Crew} {ts us : List Turn} {id : Int} {recipient : String} :
    c.Reached (ts ++ us) id recipient ↔
      c.Reached ts id recipient ∨ (c.after ts).Reached us id recipient := by
  simp only [Reached, along_append, List.mem_append, or_and_right, exists_or]

theorem reached_answer {c : Crew} {i : Nat} {s : Sweep} {p : Pending} {recipient : String}
    {rest receipts : List String} {answer : Except Failure String} (hs : c.sweeps[i]? = some s)
    (hact : s.activity = .sending p recipient rest receipts) (hok : answer.isOk = true) :
    c.Reached [.answer i answer] p.id recipient := by
  refine ⟨⟨i, p.id, ⟨.text p.title, .text p.body, [recipient]⟩, answer⟩, ?_, rfl, rfl, hok⟩
  simp [along_singleton, call?, hs, hact, Sweep.request?]

section step
variable {c : Crew} {id : Int} {recipients : List String} {reached reached' : String → Prop}

theorem Traces.mono (h : c.Traces id recipients reached) (hle : ∀ x, reached x → reached' x) :
    c.Traces id recipients reached' where
  wellNumbered := h.wellNumbered
  known := h.known
  row r hr := (h.row r hr).mono hle
  due i s hs p hp hid := (h.due i s hs p hp hid).mono hle
  activity i s hs := (h.activity i s hs).mono hle

theorem Traces.row_turn (h : c.Traces id recipients reached) (t : Turn) (r' : Row)
    (hr' : (c.turn t).store.find? id = some r') : r'.Traces recipients reached := by
  have hrow := (turn_step h.wellNumbered t).row h.wellNumbered id
  have hold := h.row
  rw [hr'] at hrow
  generalize c.store.find? id = o at hrow hold
  cases hrow with
  | kept => exact hold r' rfl
  | stored _ _ hid => exact absurd h.known (by omega)
  | touched _ hs htouch => exact htouch.traces hold (h.activity _ _ hs) r' rfl

theorem Traces.due_turn (h : c.Traces id recipients reached) (t : Turn) {i : Nat} {s' : Sweep}
    (hs' : (c.turn t).sweeps[i]? = some s') {p : Pending} (hp : p ∈ s'.due) (hid : p.id = id) :
    p.Traces recipients reached := by
  cases (turn_step h.wellNumbered t).sweep hs' with
  | kept hs => exact h.due i s' hs p hp hid
  | joined policy now _ _ hlist =>
    subst hlist
    obtain ⟨r, hr, hpending, -⟩ := (Sweep.list_due h.wellNumbered policy now).2 p hp
    exact (h.row r (hid ▸ hr)).pending hpending
  | advanced _ hs hstep => exact h.due i _ hs p (hstep.due_suffix.subset hp) hid
  | answered answer _ hs hs' =>
    rw [hs', Sweep.answered_due] at hp
    exact h.due i _ hs p hp hid

theorem Traces.activity_turn (h : c.Traces id recipients reached) (t : Turn) {i : Nat} {s' : Sweep}
    (hs' : (c.turn t).sweeps[i]? = some s') :
    s'.activity.Traces id recipients fun x => reached x ∨ c.Reached [t] id x := by
  cases (turn_step h.wellNumbered t).sweep hs' with
  | kept hs => exact (h.activity i s' hs).mono fun _ => Or.inl
  | joined policy now _ _ hlist =>
    subst hlist
    unfold Sweep.list
    split <;> trivial
  | advanced _ hs hstep =>
    exact (hstep.activity_traces (h.due i _ hs) (h.activity i _ hs)).mono fun _ => Or.inl
  | answered answer ht hs hs' =>
    subst hs' ht
    refine Sweep.answered_traces answer c.desk (h.activity i _ hs) (fun _ => Or.inl) ?_
    intro p recipient rest receipts hact hid hok
    exact Or.inr (hid ▸ reached_answer hs hact hok)

theorem Traces.turn (h : c.Traces id recipients reached) (t : Turn) :
    (c.turn t).Traces id recipients fun x => reached x ∨ c.Reached [t] id x where
  wellNumbered := (turn_step h.wellNumbered t).wellNumbered h.wellNumbered
  known := Int.le_trans h.known (turn_step h.wellNumbered t).lastId_le
  row r' hr' := (h.row_turn t r' hr').mono fun _ => Or.inl
  due _ _ hs' _ hp hid := (h.due_turn t hs' hp hid).mono fun _ => Or.inl
  activity _ _ hs' := h.activity_turn t hs'

theorem Traces.after (h : c.Traces id recipients reached) (ts : List Turn) :
    (c.after ts).Traces id recipients fun x => reached x ∨ c.Reached ts id x := by
  induction ts generalizing c reached with
  | nil => exact h.mono fun _ => Or.inl
  | cons t ts ih =>
    refine (ih (h.turn t)).mono fun x hx => ?_
    rw [← List.singleton_append, reached_append, ← or_assoc]
    exact hx

/-- Of a message that leaves the store the row was free, or each recipient was reached. -/
theorem Traces.removed (h : c.Traces id recipients reached) {t : Turn} {r : Row}
    (hr : c.store.find? id = some r) (hr' : (c.turn t).store.find? id = none) :
    (t.isCancel = true ∧ r.claimedAt = none) ∨
      ((∃ i, c.complete? t = some (i, id)) ∧ ∀ x ∈ recipients, reached x) := by
  have hrow := (turn_step h.wellNumbered t).row h.wellNumbered id
  rw [hr, hr'] at hrow
  cases hrow with
  | cancelled ht hfree => exact Or.inl ⟨ht, hfree⟩
  | @touched i s _ _ ht hs htouch =>
    have hact := h.activity i s hs
    cases htouch with
    | @completed p receipts _ hcompleting hid =>
      rw [hcompleting] at hact
      refine Or.inr ⟨⟨i, seeAdvance_eq_some.mpr ⟨ht, s, hs, ?_⟩⟩, hact hid⟩
      simp [Activity.completes?, hcompleting, hid]

end step

/-! ## Whole runs -/

/-- Of a message that was just stored nobody was reached, and no sweep knows it. -/
theorem traces_create {c : Crew} (hc : c.Bounded) {t : Turn} {now : Calendar.Instant}
    {draft : Draft} {recipients : List String} {id : Int} {st : Store}
    (hrecipients : draft.recipients = .list (recipients.map Value.text))
    (hcreate : Store.create now draft c.store = .ok (id, st)) (hturn : (c.turn t).store = st) :
    (c.turn t).Traces id recipients (fun _ => False) ∧ (c.turn t).store.find? id ≠ none := by
  obtain ⟨items, row, hitems, rfl, rfl, hrow, hrecipientsJson, hdeliveredJson, -⟩ :=
    Store.create_ok hcreate
  rw [hrecipients] at hitems
  cases hitems
  have hnew : c.store.lastId < row.id := by omega
  have hlast : (c.turn t).store.lastId = row.id := by rw [hturn, Store.insertLast]
  have hsweeps := (turn_step hc.wellNumbered t).sweeps_eq (by omega)
  have hfind : (c.turn t).store.find? row.id = some row := by
    rw [hturn, Store.find?_insertLast hc.wellNumbered hnew, if_pos rfl]
  refine ⟨⟨?_, by omega, fun r hr => ?_, fun i s hs p hp hid => ?_, fun i s hs => ?_⟩,
    by simp [hfind]⟩
  · rw [hturn]
    exact Store.wellNumbered_insertLast hc.wellNumbered hnew
  · rw [hfind] at hr
    cases hr
    refine ⟨?_, [], ?_, by simp⟩
    · rw [hrecipientsJson]
      exact loadList_write_texts _
    · rw [Row.Notes, hdeliveredJson]
      exact loadList_write_texts []
  · rw [hsweeps] at hs
    have := hc.due i s hs p hp
    omega
  · rw [hsweeps] at hs
    have hholding := hc.holding i s row.id hs
    cases hact : s.activity with
    | sending | noting | completing =>
      intro hid
      have := hholding (by simp [hact, Activity.holding?, hid])
      omega
    | _ => trivial

/-- A message that was dispatched with a delay leaves the store only if it is cancelled while its
row is free, or if a sweep deletes it; and then each of its recipients was reached by a call of the
messenger for this message. -/
theorem dispatched_is_not_lost (c : Crew) (hc : c.IsFresh) (before after : List Turn)
    (payload : Payload) (delay automationId : Value) (id : Int) (d : Desk)
    (hplan : Script.Dispatch.plan payload delay automationId (c.after before).desk =
      .store (.pending id) d)
    (hgone : (c.after (before ++ .dispatch payload delay automationId :: after)).store.find? id =
      none) :
    ∃ ts t us r, before ++ .dispatch payload delay automationId :: after = ts ++ t :: us ∧
      (c.after ts).store.find? id = some r ∧ ((c.after ts).turn t).store.find? id = none ∧
      ((t.isCancel = true ∧ r.claimedAt = none) ∨
        ((∃ i, (c.after ts).complete? t = some (i, id)) ∧
          ∀ x ∈ payload.recipients, c.Reached ts id x)) := by
  obtain ⟨draft, id', hrecipients, hid, hcreate⟩ := plan_store hplan
  cases hid
  have hstore : ((c.after before).turn (.dispatch payload delay automationId)).store = d.store := by
    rw [turn, dispatch, hplan]
    rfl
  obtain ⟨hstart, hstored⟩ := traces_create (hc.bounded.after before) hrecipients hcreate hstore
  rw [after_append, after_cons] at hgone
  -- The row was there after the dispatch, so there is a turn in which it leaves.
  obtain ⟨us, t, vs, rfl, hbefore, hafter⟩ :=
    exists_turn_of_change (P := fun c => c.store.find? id ≠ none) hstored (by simpa using hgone)
  obtain ⟨r, hr⟩ := Option.ne_none_iff_exists'.mp hbefore
  have htraces := hstart.after us
  have hgone' := Decidable.not_not.mp hafter
  refine ⟨before ++ .dispatch payload delay automationId :: us, t, vs, r, by simp, ?_, ?_, ?_⟩
  · rw [after_append, after_cons, hr]
  · rw [after_append, after_cons, hgone']
  · rw [after_append, after_cons]
    rcases htraces.removed hr hgone' with hcancel | ⟨hcomplete, hreached⟩
    · exact Or.inl hcancel
    · refine Or.inr ⟨hcomplete, fun x hx => ?_⟩
      have hx := (hreached x hx).resolve_left fun h => h
      rw [reached_append, ← List.singleton_append, reached_append]
      exact Or.inr (Or.inr hx)

/-! ## A message that is delivered -/

/-- A sweep delivers the only message that is due. -/
def deliveredAtOne : List Turn :=
  [.setClock oneOClock, .join thrice (.ofInstant oneOClock), .advance 0,
    .answer 0 (.ok "receipt"), .advance 0, .advance 0]

theorem dispatched_is_not_lost_greeting :
    ∃ ts t us r, [] ++ .dispatch greeting (.int 5) .null :: deliveredAtOne = ts ++ t :: us ∧
      ((idle noon).after ts).store.find? 1 = some r ∧
      (((idle noon).after ts).turn t).store.find? 1 = none ∧
      ((t.isCancel = true ∧ r.claimedAt = none) ∨
        ((∃ i, ((idle noon).after ts).complete? t = some (i, 1)) ∧
          ∀ x ∈ greeting.recipients, (idle noon).Reached ts 1 x)) :=
  dispatched_is_not_lost (idle noon) (isFresh_idle noon) [] deliveredAtOne greeting (.int 5) .null 1
    ((idle noon).turn (.dispatch greeting (.int 5) .null)).desk (by rfl) (by decide +kernel)

end Crew

end Courier.Outbox
