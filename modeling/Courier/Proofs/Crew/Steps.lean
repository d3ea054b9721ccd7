import Courier.Proofs.Crew.Basic

/-!
# The steps of a crew

`Crew.Step` says what a turn can do to the store and to the sweeps, and `Crew.turn_step` that every
turn is such a step.
-/

namespace Courier.Outbox

namespace Crew

inductive Step (c : Crew) : Turn → Crew → Prop where
  | still {t : Turn} {c' : Crew} (ht : ∀ i, t.sweep? = some i → c.sweeps[i]? = none)
    (hstore : c'.store = c.store) (hsweeps : c'.sweeps = c.sweeps) : Step c t c'
  | stored {t : Turn} {c' : Crew} {row : Row} (ht : t.sweep? = none)
    (hrow : row.id = c.store.lastId + 1) (hstore : c'.store = c.store.insertLast row)
    (hsweeps : c'.sweeps = c.sweeps) : Step c t c'
  /-- Only rows that are free are cancelled. -/
  | cancelled {t : Turn} {c' : Crew} (p : Row → Bool) (ht : t.isCancel = true)
    (hfree : ∀ r, p r = true → r.claimedAt = none) (hstore : c'.store = c.store.remove p)
    (hsweeps : c'.sweeps = c.sweeps) : Step c t c'
  | joined {c' : Crew} (policy : Policy) (now : Calendar.Moment) (hstore : c'.store = c.store)
    (hsweeps : c'.sweeps = c.sweeps ++ [Sweep.list policy now c.desk]) :
    Step c (.join policy now) c'
  | advanced {c' : Crew} {i : Nat} {s s' : Sweep} (hs : c.sweeps[i]? = some s)
    (hstep : s.Step c.desk s' c'.store) (hsweeps : c'.sweeps = c.sweeps.set i s') :
    Step c (.advance i) c'
  | answered {c' : Crew} {i : Nat} {s : Sweep} {answer : Except Failure String}
    (hs : c.sweeps[i]? = some s) (hstore : c'.store = c.store)
    (hsweeps : c'.sweeps = c.sweeps.set i (s.answered answer c.desk).2) :
    Step c (.answer i answer) c'

theorem perform_cases {α : Type} (operation : Operation α) (c : Crew) :
    (c.perform operation = c) ∨
      ∃ a st, operation c.store = .ok (a, st) ∧
        c.perform operation = { c with desk := { c.desk with store := st } } := by
  unfold perform Desk.perform
  cases h : operation c.desk.store with
  | error f => exact Or.inl rfl
  | ok result => exact Or.inr ⟨result.1, result.2, h, rfl⟩

/-- Storing a message changes the store and the log only. The draft of the message has its texts. -/
theorem plan_stored {payload : Message.Payload} {delay automationId : Value} {d d' : Desk}
    {result : Script.Dispatch.Dispatched}
    (h : Script.Dispatch.plan payload delay automationId d = .store result d') :
    Script.Dispatch.checkRecipients payload = .ok () ∧
      ∃ draft id store, draft.automationId = automationId ∧ draft.title = payload.title ∧
        draft.body = payload.body ∧ draft.recipients = .list (payload.recipients.map Value.text) ∧
        result = .pending id ∧ Store.create d.now draft d.store = .ok (id, store) ∧
        d' = { d with store }.log (Script.Dispatch.scheduledRecord automationId id) := by
  unfold Script.Dispatch.plan at h
  split at h
  · cases h
  rename_i hrecipients
  split at h
  · cases h
  · cases h
  split at h
  · cases h
  rename_i hschedule
  cases h
  simp only [Script.Dispatch.schedule, bind_eq_ok] at hschedule
  obtain ⟨draft, hdraft, ⟨id, d₁⟩, hperform, hresult⟩ := hschedule
  cases hresult
  simp only [Script.Dispatch.draftAfter, bind_eq_ok] at hdraft
  obtain ⟨span, _, hdraft⟩ := hdraft
  split at hdraft
  · cases hdraft
  cases hdraft
  unfold Desk.perform at hperform
  split at hperform
  · rename_i hcreate
    cases hperform
    exact ⟨hrecipients, _, id, _, rfl, rfl, rfl, rfl, rfl, hcreate, rfl⟩
  · cases hperform

theorem plan_draft {payload : Message.Payload} {delay automationId : Value} {d d' : Desk}
    {result : Script.Dispatch.Dispatched}
    (h : Script.Dispatch.plan payload delay automationId d = .store result d') :
    ∃ draft id, draft.automationId = automationId ∧ draft.title = payload.title ∧
      draft.body = payload.body ∧ draft.recipients = .list (payload.recipients.map Value.text) ∧
      result = .pending id ∧ Store.create d.now draft d.store = .ok (id, d'.store) := by
  obtain ⟨-, draft, id, store, hautomation, htitle, hbody, hrecipients, hresult, hcreate, rfl⟩ :=
    plan_stored h
  exact ⟨draft, id, hautomation, htitle, hbody, hrecipients, hresult, hcreate⟩

/-- A message that is to be sent after a delay is stored, and nothing else is done. -/
theorem plan_store {payload : Message.Payload} {delay automationId : Value} {d d' : Desk}
    {result : Script.Dispatch.Dispatched}
    (h : Script.Dispatch.plan payload delay automationId d = .store result d') :
    ∃ draft id, draft.recipients = .list (payload.recipients.map Value.text) ∧
      result = .pending id ∧ Store.create d.now draft d.store = .ok (id, d'.store) := by
  obtain ⟨draft, id, -, -, -, hrecipients, hresult, hcreate⟩ := plan_draft h
  exact ⟨draft, id, hrecipients, hresult, hcreate⟩

section turns
variable {c : Crew} (hc : c.store.WellNumbered)

theorem create_step (draft : Draft) : Step c (.create draft) (c.turn (.create draft)) := by
  rcases perform_cases (Store.create c.desk.now draft) c with he | ⟨id, st, hok, he⟩
  · rw [turn, he]
    exact .still (by simp [Turn.sweep?]) rfl rfl
  · obtain ⟨items, row, -, rfl, rfl, hid, -⟩ := Store.create_ok hok
    rw [turn, he]
    exact .stored rfl hid rfl rfl

theorem dispatch_step (payload : Message.Payload) (delay automationId : Value) :
    Step c (.dispatch payload delay automationId) (c.turn (.dispatch payload delay automationId)) := by
  rw [turn, dispatch]
  split
  · rename_i result d' hplan
    obtain ⟨draft, id, -, -, hcreate⟩ := plan_store hplan
    obtain ⟨items, row, -, hst, rfl, hid, -⟩ := Store.create_ok hcreate
    exact .stored rfl hid hst rfl
  · exact .still (by simp [Turn.sweep?]) rfl rfl

theorem cancel_step (id : Int) : Step c (.cancel id) (c.turn (.cancel id)) := by
  rcases perform_cases (Store.cancel id) c with he | ⟨b, st, hok, he⟩
  · rw [turn, he]
    exact .still (by simp [Turn.sweep?]) rfl rfl
  · rw [turn, he]
    refine .cancelled _ rfl (fun r hr => ?_) (Store.cancel_ok hok) rfl
    simp only [Bool.and_eq_true, Option.isNone_iff_eq_none] at hr
    exact hr.2

theorem cancelAll_step (automationId : Value) :
    Step c (.cancelAll automationId) (c.turn (.cancelAll automationId)) := by
  rcases perform_cases (Store.cancelAll automationId) c with he | ⟨n, st, hok, he⟩
  · rw [turn, he]
    exact .still (by simp [Turn.sweep?]) rfl rfl
  · obtain ⟨key, hst⟩ := Store.cancelAll_ok hok
    rw [turn, he]
    refine .cancelled _ rfl (fun r hr => ?_) hst rfl
    simp only [Bool.and_eq_true, Option.isNone_iff_eq_none] at hr
    exact hr.2

include hc in
theorem advance_step (i : Nat) : Step c (.advance i) (c.turn (.advance i)) := by
  rw [turn, act]
  split
  · rename_i hs
    exact .still (by simpa [Turn.sweep?] using hs) rfl rfl
  · rename_i s hs
    exact .advanced hs (Sweep.advance_step hc) rfl

theorem answer_step (i : Nat) (answer : Except Failure String) :
    Step c (.answer i answer) (c.turn (.answer i answer)) := by
  rw [turn, act]
  split
  · rename_i hs
    exact .still (by simpa [Turn.sweep?] using hs) rfl rfl
  · rename_i s hs
    exact .answered hs (by rw [store, Sweep.answered_store]; rfl) rfl

include hc in
theorem turn_step (t : Turn) : Step c t (c.turn t) := by
  cases t with
  | setClock now => exact .still (by simp [Turn.sweep?]) rfl rfl
  | create draft => exact create_step draft
  | dispatch payload delay automationId => exact dispatch_step payload delay automationId
  | cancel id => exact cancel_step id
  | cancelAll automationId => exact cancelAll_step automationId
  | join policy now => exact .joined policy now rfl rfl
  | advance i => exact advance_step hc i
  | answer i answer => exact answer_step i answer

end turns

/-! ## What every turn keeps -/

variable {c c' : Crew} {t : Turn}

theorem Step.wellNumbered (h : Step c t c') (hc : c.store.WellNumbered) :
    c'.store.WellNumbered := by
  cases h with
  | still _ hstore | joined _ _ hstore | answered _ hstore => exact hstore ▸ hc
  | stored _ hrow hstore => exact hstore ▸ Store.wellNumbered_insertLast hc (by omega)
  | cancelled p _ _ hstore => exact hstore ▸ Store.wellNumbered_remove hc p
  | advanced _ hstep => exact hstep.wellNumbered hc

theorem Step.lastId_le (h : Step c t c') : c.store.lastId ≤ c'.store.lastId := by
  cases h with
  | still _ hstore | joined _ _ hstore | answered _ hstore => exact hstore ▸ Int.le_refl _
  | @stored _ _ row _ hrow hstore =>
    have hlast : c'.store.lastId = row.id := by rw [hstore, Store.insertLast]
    omega
  | cancelled p _ _ hstore => exact hstore ▸ Int.le_refl _
  | advanced _ hstep => exact hstep.lastId_eq ▸ Int.le_refl _

theorem Step.closed_eq (h : Step c t c') : c'.store.closed = c.store.closed := by
  cases h with
  | still _ hstore | joined _ _ hstore | answered _ hstore => rw [hstore]
  | stored _ _ hstore | cancelled _ _ _ hstore => rw [hstore]; rfl
  | advanced _ hstep => exact hstep.closed_eq

/-! ## Single rows and single sweeps -/

/-- What a turn does to the row of a number. -/
inductive RowStep (c : Crew) (t : Turn) (id : Int) : Option Row → Option Row → Prop where
  | kept (o : Option Row) : RowStep c t id o o
  | stored (row : Row) (ht : t.sweep? = none) (hid : c.store.lastId < id) :
    RowStep c t id none (some row)
  | cancelled {r : Row} (ht : t.isCancel = true) (hfree : r.claimedAt = none) :
    RowStep c t id (some r) none
  | touched {i : Nat} {s : Sweep} {o o' : Option Row} (ht : t = .advance i)
    (hs : c.sweeps[i]? = some s) (htouch : s.Touch c.desk id o o') : RowStep c t id o o'

theorem Step.row (h : Step c t c') (hc : c.store.WellNumbered) (id : Int) :
    RowStep c t id (c.store.find? id) (c'.store.find? id) := by
  cases h with
  | still _ hstore | joined _ _ hstore | answered _ hstore => exact hstore ▸ .kept _
  | @stored _ _ row ht hrow hstore =>
    rw [hstore, Store.find?_insertLast hc (by omega)]
    split
    · rename_i hid
      rw [Store.find?_of_lt_lastId hc (by omega)]
      exact .stored row ht (by omega)
    · exact .kept _
  | cancelled p ht hfree hstore =>
    rw [hstore, Store.find?_remove hc]
    cases hr : c.store.find? id with
    | none => exact .kept _
    | some r =>
      cases hp : p r with
      | true =>
        rw [Option.filter_some_neg (by simp [hp])]
        exact .cancelled ht (hfree r hp)
      | false =>
        rw [Option.filter_some_pos (by simp [hp])]
        exact .kept _
  | advanced hs hstep => exact .touched rfl hs (hstep.touch hc id)

/-- How the sweep at a place came to be what it is after a turn. -/
inductive SweepStep (c : Crew) (t : Turn) (c' : Crew) (k : Nat) (s' : Sweep) : Prop where
  | kept (hs : c.sweeps[k]? = some s') (ht : t.sweep? ≠ some k)
  | joined (policy : Policy) (now : Calendar.Moment) (ht : t = .join policy now)
    (hk : k = c.sweeps.length) (hs' : s' = Sweep.list policy now c.desk)
  | advanced {s : Sweep} (ht : t = .advance k) (hs : c.sweeps[k]? = some s)
    (hstep : s.Step c.desk s' c'.store)
  | answered {s : Sweep} (answer : Except Failure String) (ht : t = .answer k answer)
    (hs : c.sweeps[k]? = some s) (hs' : s' = (s.answered answer c.desk).2)

theorem getElem?_set_cases {l : List Sweep} {i k : Nat} {s s' : Sweep}
    (h : (l.set i s)[k]? = some s') : (i = k ∧ s = s') ∨ (i ≠ k ∧ l[k]? = some s') := by
  rw [List.getElem?_set] at h
  split at h
  · rename_i hik
    split at h
    · exact Or.inl ⟨hik, by simpa using h⟩
    · cases h
  · rename_i hik
    exact Or.inr ⟨hik, h⟩

theorem Step.sweep (h : Step c t c') {k : Nat} {s' : Sweep} (hs' : c'.sweeps[k]? = some s') :
    SweepStep c t c' k s' := by
  cases h with
  | still ht _ hsweeps =>
    rw [hsweeps] at hs'
    refine .kept hs' fun hk => ?_
    rw [ht k hk] at hs'
    cases hs'
  | stored ht _ _ hsweeps => exact .kept (hsweeps ▸ hs') (by simp [ht])
  | cancelled _ ht _ _ hsweeps =>
    refine .kept (hsweeps ▸ hs') fun hk => ?_
    cases t <;> simp [Turn.isCancel, Turn.sweep?] at ht hk
  | joined policy now _ hsweeps =>
    rw [hsweeps, List.getElem?_append] at hs'
    split at hs'
    · exact .kept hs' (by simp [Turn.sweep?])
    · rename_i hlength
      have hk : k - c.sweeps.length = 0 := by
        have hlt := (List.getElem?_eq_some_iff.mp hs').1
        simpa using hlt
      rw [hk] at hs'
      exact .joined policy now rfl (by omega) (by simpa using hs'.symm)
  | advanced hs hstep hsweeps =>
    rw [hsweeps] at hs'
    rcases getElem?_set_cases hs' with ⟨rfl, rfl⟩ | ⟨hne, hk⟩
    · exact .advanced rfl hs hstep
    · exact .kept hk (by simpa [Turn.sweep?] using hne)
  | @answered _ i s answer hs _ hsweeps =>
    rw [hsweeps] at hs'
    rcases getElem?_set_cases hs' with ⟨rfl, rfl⟩ | ⟨hne, hk⟩
    · exact .answered answer rfl hs rfl
    · exact .kept hk (by simpa [Turn.sweep?] using hne)

theorem Step.sweeps_eq (h : Step c t c') (hlast : c'.store.lastId ≠ c.store.lastId) :
    c'.sweeps = c.sweeps := by
  cases h with
  | still _ _ hsweeps | stored _ _ _ hsweeps | cancelled _ _ _ _ hsweeps => exact hsweeps
  | joined _ _ hstore | answered _ hstore => exact absurd (by rw [hstore]) hlast
  | advanced _ hstep => exact absurd hstep.lastId_eq hlast

/-- What a turn does to a sweep that is there. -/
inductive SweepTurn (c : Crew) (t : Turn) (c' : Crew) (k : Nat) (s : Sweep) : Sweep → Prop where
  | kept (ht : t.sweep? ≠ some k) : SweepTurn c t c' k s s
  | advanced {s' : Sweep} (ht : t = .advance k) (hstep : s.Step c.desk s' c'.store) :
    SweepTurn c t c' k s s'
  | answered (answer : Except Failure String) (ht : t = .answer k answer) :
    SweepTurn c t c' k s (s.answered answer c.desk).2

theorem Step.sweepTurn (h : Step c t c') {k : Nat} {s : Sweep} (hs : c.sweeps[k]? = some s) :
    ∃ s', c'.sweeps[k]? = some s' ∧ SweepTurn c t c' k s s' := by
  have hk := (List.getElem?_eq_some_iff.mp hs).1
  have hlength : c.sweeps.length ≤ c'.sweeps.length := by
    cases h with
    | still _ _ hsweeps | stored _ _ _ hsweeps | cancelled _ _ _ _ hsweeps => simp [hsweeps]
    | joined _ _ _ hsweeps | advanced _ _ hsweeps | answered _ _ hsweeps => simp [hsweeps]
  have hs' : c'.sweeps[k]? = some c'.sweeps[k] := List.getElem?_eq_getElem (by omega)
  refine ⟨_, hs', ?_⟩
  generalize c'.sweeps[k] = s' at hs'
  cases h.sweep hs' with
  | kept hs₂ ht =>
    cases hs.symm.trans hs₂
    exact .kept ht
  | joined _ _ _ hlast => omega
  | advanced ht hs₂ hstep =>
    cases hs.symm.trans hs₂
    exact .advanced ht hstep
  | answered answer ht hs₂ he =>
    cases hs.symm.trans hs₂
    exact he ▸ .answered answer ht

theorem advance_sweep (hc : c.store.WellNumbered) {i : Nat} {s : Sweep}
    (hs : c.sweeps[i]? = some s) :
    ∃ s', (c.turn (.advance i)).sweeps = c.sweeps.set i s' ∧
      s.Step c.desk s' (c.turn (.advance i)).store := by
  rw [turn, act, hs]
  exact ⟨_, rfl, Sweep.advance_step hc⟩

/-! ## Numbers that were given -/

/-- Sweeps know only messages whose numbers were given. -/
structure Bounded (c : Crew) : Prop where
  wellNumbered : c.store.WellNumbered
  due : ∀ (i : Nat) (s : Sweep), c.sweeps[i]? = some s → ∀ p ∈ s.due, p.id ≤ c.store.lastId
  holding : ∀ (i : Nat) (s : Sweep) (id : Int), c.sweeps[i]? = some s →
    s.activity.holding? = some id → id ≤ c.store.lastId

theorem IsFresh.bounded (hc : c.IsFresh) : c.Bounded where
  wellNumbered := hc.wellNumbered
  due i s hs := by simp [hc.noSweeps] at hs
  holding i s id hs := by simp [hc.noSweeps] at hs

theorem Bounded.turn (h : c.Bounded) (t : Turn) : (c.turn t).Bounded := by
  have hstep := turn_step h.wellNumbered t
  have hle := hstep.lastId_le
  refine ⟨hstep.wellNumbered h.wellNumbered, fun i s' hs' p hp => ?_, fun i s' id hs' hid => ?_⟩
  · cases hstep.sweep hs' with
    | kept hs => exact Int.le_trans (h.due i s' hs p hp) hle
    | joined policy now _ _ hlist =>
      subst hlist
      obtain ⟨r, hr, -⟩ := (Sweep.list_due h.wellNumbered policy now).2 p hp
      exact Int.le_trans (Store.le_lastId_of_find? h.wellNumbered hr) hle
    | advanced _ hs hsweep =>
      exact Int.le_trans (h.due i _ hs p (hsweep.due_suffix.subset hp)) hle
    | answered answer _ hs hs' =>
      rw [hs', Sweep.answered_due] at hp
      exact Int.le_trans (h.due i _ hs p hp) hle
  · cases hstep.sweep hs' with
    | kept hs => exact Int.le_trans (h.holding i s' id hs hid) hle
    | joined policy now _ _ hlist =>
      rw [hlist, Sweep.list_holding] at hid
      cases hid
    | advanced _ hs hsweep =>
      rcases hsweep.holding hid with hclaims | ⟨hholding, -⟩
      · obtain ⟨p, due, _, _, _, _, hdue, rfl, -⟩ := hsweep.of_claims hclaims
        exact Int.le_trans (h.due i _ hs p (by simp [hdue])) hle
      · exact Int.le_trans (h.holding i _ id hs hholding) hle
    | answered answer _ hs hs' =>
      subst hs'
      exact Int.le_trans (h.holding i _ id hs (Sweep.answered_holding hid)) hle

/-! ## Runs -/

@[simp] theorem after_nil (c : Crew) : c.after [] = c :=
  rfl

@[simp] theorem after_cons (c : Crew) (t : Turn) (ts : List Turn) :
    c.after (t :: ts) = (c.turn t).after ts :=
  rfl

@[simp] theorem after_append (c : Crew) (ts us : List Turn) :
    c.after (ts ++ us) = (c.after ts).after us :=
  List.foldl_append

theorem wellNumbered_after (hc : c.store.WellNumbered) (ts : List Turn) :
    (c.after ts).store.WellNumbered := by
  induction ts generalizing c with
  | nil => exact hc
  | cons t ts ih => exact ih ((turn_step hc t).wellNumbered hc)

theorem lastId_le_after (hc : c.store.WellNumbered) (ts : List Turn) :
    c.store.lastId ≤ (c.after ts).store.lastId := by
  induction ts generalizing c with
  | nil => exact Int.le_refl _
  | cons t ts ih =>
    have hstep := turn_step hc t
    exact Int.le_trans hstep.lastId_le (ih (hstep.wellNumbered hc))

theorem closed_after (hc : c.store.WellNumbered) (ts : List Turn) :
    (c.after ts).store.closed = c.store.closed := by
  induction ts generalizing c with
  | nil => rfl
  | cons t ts ih =>
    have hstep := turn_step hc t
    exact (ih (hstep.wellNumbered hc)).trans hstep.closed_eq

theorem Bounded.after (h : c.Bounded) (ts : List Turn) : (c.after ts).Bounded := by
  induction ts generalizing c with
  | nil => exact h
  | cons t ts ih => exact ih (h.turn t)

/-- Numbers are not given twice: a message that is gone does not come back. -/
theorem absent_turn (hc : c.store.WellNumbered) {id : Int} (hid : id ≤ c.store.lastId)
    (h : c.store.find? id = none) (t : Turn) : (c.turn t).store.find? id = none := by
  have hrow := (turn_step hc t).row hc id
  rw [h] at hrow
  generalize (c.turn t).store.find? id = o at hrow
  cases hrow with
  | kept => rfl
  | stored _ _ hnew => omega
  | touched _ _ htouch => cases htouch <;> rfl

theorem absent_after (hc : c.store.WellNumbered) {id : Int} (hid : id ≤ c.store.lastId)
    (h : c.store.find? id = none) (ts : List Turn) : (c.after ts).store.find? id = none := by
  induction ts generalizing c with
  | nil => exact h
  | cons t ts ih =>
    have hstep := turn_step hc t
    exact ih (hstep.wellNumbered hc) (Int.le_trans hid hstep.lastId_le) (absent_turn hc hid h t)

theorem admits_after (hc : c.store.WellNumbered) {id : Int} (ts : List Turn) :
    (c.after ts).store.Admits id ↔ c.store.Admits id := by
  have hclosed := closed_after hc ts
  exact ⟨fun h => ⟨hclosed ▸ h.isOpen, h.isWord⟩, fun h => ⟨hclosed.trans h.isOpen, h.isWord⟩⟩

theorem along_append {α : Type} (observer : Crew → Turn → Option α) (c : Crew)
    (ts us : List Turn) :
    c.along observer (ts ++ us) = c.along observer ts ++ (c.after ts).along observer us := by
  induction ts generalizing c with
  | nil => rfl
  | cons t ts ih => simp [along, ih]

theorem along_singleton {α : Type} (observer : Crew → Turn → Option α) (c : Crew) (t : Turn) :
    c.along observer [t] = (observer c t).toList := by
  simp [along]

theorem mem_along {α : Type} {observer : Crew → Turn → Option α} {c : Crew} {ts : List Turn}
    {a : α} (h : a ∈ c.along observer ts) :
    ∃ us t vs, ts = us ++ t :: vs ∧ observer (c.after us) t = some a := by
  induction ts generalizing c with
  | nil => cases h
  | cons t ts ih =>
    rcases List.mem_append.mp h with h | h
    · exact ⟨[], t, ts, rfl, Option.mem_toList.mp h⟩
    · obtain ⟨us, u, vs, rfl, hu⟩ := ih h
      exact ⟨t :: us, u, vs, rfl, hu⟩

/-- A property that changes along a run changes in one of its turns. -/
theorem exists_turn_of_change {P : Crew → Prop} {c : Crew} {ts : List Turn} (h : P c)
    (h' : ¬ P (c.after ts)) :
    ∃ us t vs, ts = us ++ t :: vs ∧ P (c.after us) ∧ ¬ P ((c.after us).turn t) := by
  induction ts generalizing c with
  | nil => exact absurd h h'
  | cons t ts ih =>
    by_cases ht : P (c.turn t)
    · obtain ⟨us, u, vs, rfl, hus, hu⟩ := ih ht h'
      exact ⟨t :: us, u, vs, rfl, hus, hu⟩
    · exact ⟨[], t, ts, rfl, h, ht⟩

/-! ## From call to call

Between two calls of the messenger a sweep performs its operations without a stop, so what the
program does with a sweep at a time is a run of the crew.
-/

theorem turn_advance {i : Nat} {s : Sweep} (hs : c.sweeps[i]? = some s) :
    c.turn (.advance i) = ⟨(s.advance c.desk).1, c.sweeps.set i (s.advance c.desk).2⟩ := by
  rw [turn, act, hs]

theorem turn_answer {i : Nat} {s : Sweep} (hs : c.sweeps[i]? = some s)
    (answer : Except Failure String) :
    c.turn (.answer i answer) =
      ⟨(s.answered answer c.desk).1, c.sweeps.set i (s.answered answer c.desk).2⟩ := by
  rw [turn, act, hs]

theorem sweep_turn_advance {i : Nat} {s : Sweep} (hs : c.sweeps[i]? = some s) :
    (c.turn (.advance i)).sweeps[i]? = some (s.advance c.desk).2 := by
  rw [turn_advance hs, List.getElem?_set_self (List.getElem?_eq_some_iff.mp hs).1]

theorem sweep_turn_answer {i : Nat} {s : Sweep} (hs : c.sweeps[i]? = some s)
    (answer : Except Failure String) :
    (c.turn (.answer i answer)).sweeps[i]? = some (s.answered answer c.desk).2 := by
  rw [turn_answer hs, List.getElem?_set_self (List.getElem?_eq_some_iff.mp hs).1]

theorem exists_after_proceed {i : Nat} {s : Sweep} (hs : c.sweeps[i]? = some s) :
    ∃ n, c.after (List.replicate n (.advance i)) =
      ⟨(s.proceed c.desk).1, c.sweeps.set i (s.proceed c.desk).2⟩ := by
  generalize hd : c.desk = d
  induction s, d using Sweep.proceed.induct generalizing c with
  | case1 s d hbusy _ ih =>
    subst hd
    obtain ⟨n, hn⟩ := ih (sweep_turn_advance hs) (by rw [turn_advance hs])
    refine ⟨n + 1, ?_⟩
    rw [List.replicate_succ, after_cons, hn, turn_advance hs, List.set_set,
      Sweep.proceed_of_busy hbusy]
  | case2 s d hbusy =>
    subst hd
    obtain ⟨hi, hget⟩ := List.getElem?_eq_some_iff.mp hs
    refine ⟨0, ?_⟩
    rw [Sweep.proceed_of_not_busy hbusy, ← hget, List.set_getElem_self]
    rfl

theorem exists_after_start (c : Crew) (policy : Policy) (now : Calendar.Moment) :
    ∃ n, c.after (.join policy now :: List.replicate n (.advance c.sweeps.length)) =
      ⟨(Sweep.start policy now c.desk).1, c.sweeps ++ [(Sweep.start policy now c.desk).2]⟩ := by
  have hjoin : (c.turn (.join policy now)).sweeps[c.sweeps.length]? =
      some (Sweep.list policy now c.desk) := by simp [turn]
  obtain ⟨n, hn⟩ := exists_after_proceed hjoin
  refine ⟨n, ?_⟩
  rw [after_cons, hn]
  simp [turn, Sweep.start]

theorem exists_after_resume {i : Nat} {s : Sweep} (hs : c.sweeps[i]? = some s)
    (answer : Except Failure String) :
    ∃ n, c.after (.answer i answer :: List.replicate n (.advance i)) =
      ⟨(s.resume answer c.desk).1, c.sweeps.set i (s.resume answer c.desk).2⟩ := by
  obtain ⟨n, hn⟩ := exists_after_proceed (sweep_turn_answer hs answer)
  refine ⟨n, ?_⟩
  rw [after_cons, hn, turn_answer hs, List.set_set, Sweep.resume]

/-! ## What observers see -/

theorem seeAdvance_eq_some {α : Type} {see : Sweep → Desk → Option α} {i : Nat} {a : α} :
    seeAdvance see c t = some (i, a) ↔
      t = .advance i ∧ ∃ s, c.sweeps[i]? = some s ∧ see s c.desk = some a := by
  cases t with
  | advance j =>
    simp only [seeAdvance, Option.bind_eq_some_iff, Option.map_eq_some_iff, Prod.mk.injEq,
      Turn.advance.injEq]
    constructor
    · rintro ⟨s, hs, a', ha, rfl, rfl⟩
      exact ⟨rfl, s, hs, ha⟩
    · rintro ⟨rfl, s, hs, ha⟩
      exact ⟨s, hs, a, ha, rfl, rfl⟩
  | _ => simp [seeAdvance]

/-- A call is answered while its sweep waits to send the message. -/
theorem call?_eq_some {call : Call} (h : c.call? t = some call) :
    t = .answer call.sweep call.answer ∧ ∃ s p recipient rest receipts,
      c.sweeps[call.sweep]? = some s ∧ s.activity = .sending p recipient rest receipts ∧
      call.id = p.id ∧ call.payload = ⟨.text p.title, .text p.body, [recipient]⟩ := by
  unfold call? at h
  split at h
  · split at h
    · rename_i s hs
      split at h
      · rename_i p recipient rest receipts payload hact hrequest
        cases h
        rw [Sweep.request?, hact] at hrequest
        cases hrequest
        exact ⟨rfl, s, p, recipient, rest, receipts, hs, hact, rfl, rfl⟩
      · cases h
    · cases h
  · cases h

end Crew

end Courier.Outbox
