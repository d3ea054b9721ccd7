import Courier.Proofs.Crew.Actions

/-!
# Cancelling is final

A cancellation deletes free rows only, and without leases a row is free exactly if no sweep is at work
on it. As numbers are not given twice, a message that was cancelled is never sent again, though it may
still be in the list of a sweep.
-/

namespace Courier.Outbox

/-! ## What is deleted -/

def Row.BelongsTo (automationId : Value) (r : Row) : Prop :=
  ∃ key, Cell.ofParameter 1 automationId = .ok key ∧ r.automationId.agrees key.toInteger = true

namespace Store

theorem length_remove (s : Store) (p : Row → Bool) :
    s.rows.countP p + (s.remove p).rows.length = s.rows.length := by
  have hlength := List.length_eq_countP_add_countP p (l := s.rows)
  rw [remove, ← List.countP_eq_length_filter, hlength]
  simp only [Bool.not_eq_true, Bool.decide_eq_false]

theorem countP_of_cancel {s s' : Store} (hs : s.WellNumbered) {id : Int} {b : Bool}
    (h : cancel id s = .ok (b, s')) :
    s.rows.countP (fun r => r.id == id && r.claimedAt.isNone) = if b then 1 else 0 := by
  simp only [cancel, bind_eq_ok] at h
  obtain ⟨_, _, _, _, h⟩ := h
  cases h
  have hone : s.rows.countP (fun r => r.id == id && r.claimedAt.isNone) ≤ 1 := by
    have hcount := List.nodup_iff_count.mp hs.nodup id
    rw [List.count, List.countP_map] at hcount
    apply Nat.le_trans _ hcount
    apply List.countP_mono_left
    intro r _ hr
    exact (Bool.and_eq_true _ _ ▸ hr).1
  split
  · rename_i hany
    have hpos := List.countP_pos_iff.mpr (List.any_eq_true.mp hany)
    omega
  · rename_i hany
    apply List.countP_eq_zero.mpr
    intro r hr hfree
    exact hany (List.any_eq_true.mpr ⟨r, hr, hfree⟩)

theorem cancelAll_count {s s' : Store} {automationId : Value} {n : Nat}
    (h : cancelAll automationId s = .ok (n, s')) :
    ∃ key, Cell.ofParameter 1 automationId = .ok key ∧
      n = s.rows.countP (fun r => r.automationId.agrees key.toInteger && r.claimedAt.isNone) ∧
      s' = s.remove fun r => r.automationId.agrees key.toInteger && r.claimedAt.isNone := by
  simp only [cancelAll, bind_eq_ok] at h
  obtain ⟨_, _, key, hkey, h⟩ := h
  cases h
  exact ⟨key, hkey, List.countP_eq_length_filter.symm, rfl⟩

end Store

namespace Crew

/-- The messages that a cancellation is meant for. -/
def Action.Concerns : Action → Row → Prop
  | .turn (.cancel id), r => r.id = id
  | .turn (.cancelAll automationId), r | .cancelPending automationId, r => r.BelongsTo automationId
  | .reset x, r => r.BelongsTo x.automation.id
  | .turn _, _ => False

/-- The number of deleted messages that a cancellation gives; none if it fails. The one of a single
message tells only whether it was deleted. -/
def cancelled? (c : Crew) : Action → Option Int
  | .turn (.cancel id) =>
    (Store.cancel id c.store).toOption.map fun result => if result.1 then 1 else 0
  | .turn (.cancelAll automationId) =>
    (Store.cancelAll automationId c.store).toOption.map fun result => result.1
  | .cancelPending automationId =>
    (Script.Dispatch.cancelPending automationId c.desk).toOption.map fun result => result.1
  | .reset r =>
    match r.hook.settle? ⟨c.desk, none⟩ with
    | some (.ok (.int count), _) => some count
    | _ => none
  | .turn _ => none

theorem cancelled?_cancelPending (c : Crew) (automationId : Value) :
    c.cancelled? (.cancelPending automationId) = c.cancelled? (.turn (.cancelAll automationId)) := by
  change (Script.Dispatch.cancelPending automationId c.desk).toOption.map _ =
    (Store.cancelAll automationId c.desk.store).toOption.map _
  unfold Script.Dispatch.cancelPending Desk.perform
  cases Store.cancelAll automationId c.desk.store with
  | error f => rfl
  | ok result => rfl

theorem cancelled?_reset (c : Crew) (r : Script.Reset) :
    c.cancelled? (.reset r) = c.cancelled? (.cancelPending r.automation.id) := by
  change (match r.hook.settle? ⟨c.desk, none⟩ with
    | some (.ok (.int count), _) => some count
    | _ => none) = (Script.Dispatch.cancelPending r.automation.id c.desk).toOption.map _
  rw [r.settle?_hook, Script.Reset.outcome]
  cases Script.Dispatch.cancelPending r.automation.id c.desk with
  | error f => rfl
  | ok result => rfl

/-- Nothing is deleted, or the free rows of those concerned are. -/
def Deletes (c : Crew) (a : Action) (count? : Option Int) (st : Store) : Prop :=
  (count? = none ∧ st = c.store) ∨
    ∃ p : Row → Bool, (∀ r, p r = true ↔ a.Concerns r ∧ r.claimedAt = none) ∧
      count? = some (c.store.rows.countP p : Int) ∧ st = c.store.remove p

theorem deletes_cancel {c : Crew} (hc : c.store.WellNumbered) (id : Int) :
    c.Deletes (.turn (.cancel id)) (c.cancelled? (.turn (.cancel id))) (c.turn (.cancel id)).store := by
  rcases hcancel : Store.cancel id c.store with f | ⟨b, st⟩
  · left
    constructor
    · simp [cancelled?, hcancel, Except.toOption]
    · simp [turn, perform, Desk.perform, show Store.cancel id c.desk.store = _ from hcancel]
  · right
    refine ⟨fun r => r.id == id && r.claimedAt.isNone, ?_, ?_, ?_⟩
    · intro r
      simp [Action.Concerns]
    · rw [Store.countP_of_cancel hc hcancel]
      cases b <;> simp [cancelled?, hcancel, Except.toOption]
    · rw [← Store.cancel_ok hcancel]
      simp [turn, perform, Desk.perform, show Store.cancel id c.desk.store = _ from hcancel, store]

theorem deletes_cancelAll (c : Crew) (automationId : Value) :
    c.Deletes (.cancelPending automationId) (c.cancelled? (.turn (.cancelAll automationId)))
      (c.turn (.cancelAll automationId)).store := by
  rcases hcancel : Store.cancelAll automationId c.store with f | ⟨n, st⟩
  · left
    constructor
    · simp [cancelled?, hcancel, Except.toOption]
    · simp [turn, perform, Desk.perform, show Store.cancelAll automationId c.desk.store = _ from hcancel]
  · right
    obtain ⟨key, hkey, hn, hst⟩ := Store.cancelAll_count hcancel
    refine ⟨fun r => r.automationId.agrees key.toInteger && r.claimedAt.isNone, ?_, ?_, ?_⟩
    · intro r
      simp [Action.Concerns, Row.BelongsTo, hkey]
    · simp [cancelled?, hcancel, Except.toOption, hn]
    · rw [← hst]
      simp [turn, perform, Desk.perform, show Store.cancelAll automationId c.desk.store = _ from hcancel,
        store]

theorem deletes_action {c : Crew} (hc : c.store.WellNumbered) {a : Action}
    (ha : a.isCancel = true) : c.Deletes a (c.cancelled? a) (c.action a).store := by
  cases a with
  | turn t =>
    cases t with
    | cancel id => exact deletes_cancel hc id
    | cancelAll automationId => exact deletes_cancelAll c automationId
    | _ => cases ha
  | cancelPending automationId =>
    rw [cancelled?_cancelPending, action, (agrees_cancelPending (.refl c) automationId).store]
    exact deletes_cancelAll c automationId
  | reset r =>
    rw [cancelled?_reset, cancelled?_cancelPending, action, (reset_agrees c r).store,
      (agrees_cancelPending (.refl c) r.automation.id).store]
    exact deletes_cancelAll c r.automation.id

/-! ## Who is at work on a message -/

/-- A sweep claimed the message and did not give it up yet. -/
def IsHeld (c : Crew) (id : Int) : Prop :=
  ∃ (i : Nat) (s : Sweep), c.sweeps[i]? = some s ∧ s.activity.holding? = some id

/-- The call of the messenger that an action answers, if that is to deliver a message. -/
def callIn? (c : Crew) : Action → Option Call
  | .turn t => c.call? t
  | _ => none

theorem isHeld_of_callIn {c : Crew} {a : Action} {call : Call} (h : c.callIn? a = some call) :
    c.IsHeld call.id := by
  cases a with
  | turn t =>
    obtain ⟨-, s, p, recipient, rest, receipts, hs, hact, hid, -⟩ := call?_eq_some h
    exact ⟨call.sweep, s, hs, by rw [hact, hid]; rfl⟩
  | cancelPending | reset => cases h

section runs
variable {c : Crew} (hc : c.IsFresh) {as : List Action} (hoff : ∀ a ∈ as, a.LeaseOff)
include hc

theorem wellNumbered_actions (as : List Action) : (c.actions as).store.WellNumbered := by
  rw [(agrees_actions (.refl c) as).store]
  exact wellNumbered_after hc.wellNumbered _

include hoff

/-- Without leases a message that a sweep is at work on has a row that is not free. -/
theorem claimed_of_isHeld {id : Int} (h : (c.actions as).IsHeld id) :
    ∃ r, (c.actions as).store.find? id = some r ∧ r.claimedAt ≠ none := by
  have hagrees := agrees_actions (.refl c) as
  have hexclusive : Exclusive c (as.map Action.toTurn) := by
    apply exclusive_of_leaseOff hc
    intro t ht
    obtain ⟨a, ha, rfl⟩ := List.mem_map.mp ht
    exact hoff a ha
  obtain ⟨i, s, hs, hholding⟩ := h
  rw [hagrees.sweeps] at hs
  rw [hagrees.store]
  exact hexclusive.claimed i id (hexclusive.atWork i s id hs hholding)

end runs

theorem actions_append (c : Crew) (as bs : List Action) :
    c.actions (as ++ bs) = (c.actions as).actions bs :=
  List.foldl_append

theorem absent_actions {c : Crew} (hc : c.store.WellNumbered) {id : Int}
    (hid : id ≤ c.store.lastId) (h : c.store.find? id = none) (as : List Action) :
    (c.actions as).store.find? id = none := by
  rw [(agrees_actions (.refl c) as).store]
  exact absent_after hc hid h _

/-- Without leases a cancellation deletes only messages that it is meant for and that no sweep is at
work on, and tells how many it deleted. A message that it deleted is never sent again, not even by a
sweep that listed it before. -/
theorem cancellation_is_final (c : Crew) (hc : c.IsFresh) (before after : List Action) (a : Action)
    (ha : a.isCancel = true) (hoff : ∀ b ∈ before ++ a :: after, b.LeaseOff) (c₁ c₂ : Crew)
    (hc₁ : c₁ = c.actions before) (hc₂ : c₂ = c₁.action a) :
    (∀ r ∈ c₁.store.rows, r ∉ c₂.store.rows →
      a.Concerns r ∧ r.claimedAt = none ∧ ¬ c₁.IsHeld r.id ∧
        ∀ us vs, after = us ++ vs → ¬ (c₂.actions us).IsHeld r.id ∧
          ∀ b call, (c₂.actions us).callIn? b = some call → call.id ≠ r.id) ∧
    (∀ r ∈ c₁.store.rows, c₁.IsHeld r.id → r ∈ c₂.store.rows) ∧
    c₂.store.rows.Sublist c₁.store.rows ∧
    (c₁.cancelled? a).getD 0 + c₂.store.rows.length = c₁.store.rows.length := by
  have hwell : c₁.store.WellNumbered := hc₁ ▸ wellNumbered_actions hc before
  have hlater (us : List Action) : c₂.actions us = c.actions (before ++ a :: us) := by
    rw [actions_append, ← hc₁, hc₂]
    rfl
  have hfree (r : Row) (hr : r ∈ c₁.store.rows) (hheld : c₁.IsHeld r.id) : r.claimedAt ≠ none := by
    rw [hc₁] at hheld
    obtain ⟨r', hr', hclaimed⟩ := claimed_of_isHeld hc
      (fun b hb => hoff b (List.mem_append_left _ hb)) hheld
    rw [← hc₁, Store.find?_of_mem hwell hr] at hr'
    cases hr'
    exact hclaimed
  have hdeletes := deletes_action hwell ha
  rw [← hc₂] at hdeletes
  rcases hdeletes with ⟨hcount, hst⟩ | ⟨p, hp, hcount, hst⟩
  · rw [hcount, hst]
    refine ⟨fun r hr hgone => absurd hr hgone, fun r hr _ => hr, List.Sublist.refl _, ?_⟩
    simp
  · rw [hcount, hst]
    refine ⟨fun r hr hgone => ?_, fun r hr hheld => ?_, List.filter_sublist, ?_⟩
    · have hpr : p r = true := by
        by_contra hpr
        exact hgone (List.mem_filter.mpr ⟨hr, by simpa using hpr⟩)
      obtain ⟨hconcerns, hnone⟩ := (hp r).mp hpr
      refine ⟨hconcerns, hnone, fun hheld => hfree r hr hheld hnone, fun us vs hus => ?_⟩
      -- The row is gone for good, and who is at work on a message has its row.
      have hheld : ¬ (c₂.actions us).IsHeld r.id := by
        intro hheld
        rw [hlater] at hheld
        obtain ⟨r', hr', -⟩ := claimed_of_isHeld hc (fun b hb => hoff b (by
          rw [hus, ← List.cons_append, ← List.append_assoc]
          exact List.mem_append_left _ hb)) hheld
        rw [← hlater, absent_actions] at hr'
        · cases hr'
        · rw [hst]
          exact Store.wellNumbered_remove hwell p
        · rw [hst]
          exact hwell.le_lastId r hr
        · rw [hst, Store.find?_remove hwell, Store.find?_of_mem hwell hr,
            Option.filter_some_neg (by simp [hpr])]
      exact ⟨hheld, fun b call hcall hid => hheld (hid ▸ isHeld_of_callIn hcall)⟩
    · refine List.mem_filter.mpr ⟨hr, ?_⟩
      have hpr : ¬ p r = true := fun hpr => hfree r hr hheld ((hp r).mp hpr).2
      simpa using hpr
    · have hlength := c₁.store.length_remove p
      rw [Option.getD_some]
      omega

/-! ## A message that was listed -/

/-- A sweep has listed the message of an automation. -/
def listed : List Action :=
  [.turn (.dispatch greeting (.int 5) (.int 7)), .turn (.setClock oneOClock),
    .turn (.join thrice (.ofInstant oneOClock))]

def listing : Crew :=
  (idle noon).actions listed

/-- The sweep has the message before it still, and does not send it. -/
theorem cancellation_is_final_listed :
    ∃ r ∈ listing.store.rows, r ∉ (listing.action (.cancelPending (.int 7))).store.rows ∧
      (∃ s p, listing.sweeps[0]? = some s ∧ s.due = [p] ∧ p.id = r.id) ∧
      ¬ (((listing.action (.cancelPending (.int 7))).actions [.turn (.advance 0)]).IsHeld r.id) ∧
      (listing.cancelled? (.cancelPending (.int 7))).getD 0 +
        (listing.action (.cancelPending (.int 7))).store.rows.length = listing.store.rows.length := by
  have hoff : ∀ a ∈ listed ++ Action.cancelPending (.int 7) :: [.turn (.advance 0)], a.LeaseOff := by
    simp [listed, Action.LeaseOff, Action.toTurn, Turn.LeaseOff, thrice, Lease.isOff]
  obtain ⟨hgone, -, -, hcount⟩ := cancellation_is_final (idle noon) (isFresh_idle noon) listed
    [.turn (.advance 0)] (.cancelPending (.int 7)) rfl hoff listing
    (listing.action (.cancelPending (.int 7))) rfl rfl
  obtain ⟨r, hr⟩ : ∃ r, listing.store.rows = [r] ∧ r.id = 1 :=
    ⟨⟨1, noon.text, .int 7, "Hello", "See you at five.", "[\"ann\"]",
      "2024-03-01T12:05:00+00:00", none, 0, none, "[]"⟩, by decide +kernel, rfl⟩
  have hmem : r ∈ listing.store.rows := by simp [hr.1]
  have hnot : r ∉ (listing.action (.cancelPending (.int 7))).store.rows := by
    rw [show (listing.action (.cancelPending (.int 7))).store.rows = [] by decide +kernel]
    exact List.not_mem_nil
  obtain ⟨-, -, -, hlater⟩ := hgone r hmem hnot
  obtain ⟨s, hs⟩ : ∃ s, listing.sweeps[0]? = some s := ⟨_, rfl⟩
  have hids : (listing.sweeps[0]?.map fun s => s.due.map (·.id)) = some [1] := by decide +kernel
  rw [hs, Option.map_some, Option.some.injEq] at hids
  obtain ⟨p, hp, hid⟩ := List.map_eq_singleton_iff.mp hids
  refine ⟨r, hmem, hnot, ⟨s, p, hs, hp, hid.trans hr.2.symm⟩, ?_, hcount⟩
  exact (hlater [.turn (.advance 0)] [] (by simp)).1

end Crew

end Courier.Outbox
