import Courier.Application
import Courier.Proofs.Crew.Posting
import Courier.Proofs.Service.Basic

/-!
# Shutting down

When the application ends it stops its worker, and then it closes its store. A worker that waits for
the messenger hands its message back before that, and one that had no turn yet does not sweep. The store
is closed unless a failure ended the worker before: stopping such a worker gives its failure on, and the
store stays open.
-/

namespace Courier.Outbox

namespace Service
variable {v : Service}

/-! ## The end of the application -/

/-- Shutting down closes the store, or gives on the failure that ended the worker. -/
inductive Closes (v : Service) : Except Failure Unit × Desk × Worker → Prop where
  | closed {d : Desk} {w : Worker} (hcalm : ∀ f, v.worker = .ended f → f.isCancellation = true)
    (hstore : d.store = (v.desk.store.withFreed v.worker.held?).close) (hw : w.isRunning = false) :
    Closes v (.ok (), d, w)
  | failed {f : Failure} (hw : v.worker = .ended f) (hf : f.isCancellation = false) :
    Closes v (.error f, v.desk, .ended f)

theorem Orderly.closes (h : v.Orderly) : v.Closes (Application.shutDown true true v.worker v.desk) := by
  have hcalm (w : Worker) (hw : v.worker = w) (hlive : ∀ f, w ≠ .ended f) :
      ∀ f, v.worker = .ended f → f.isCancellation = true := by
    intro f hf
    exact absurd (hw.symm.trans hf) (hlive f)
  cases hw : v.worker with
  | unstarted => exact .closed (hcalm _ hw nofun) (by rw [hw]; rfl) rfl
  | scheduled | asleep => exact .closed (hcalm _ hw nofun) (by rw [hw]; rfl) rfl
  | sweeping s =>
    obtain ⟨hstore, hended⟩ := (h.waiting s hw).interrupted h.isOpen
    have hinterrupt : (Worker.sweeping s).interrupt v.desk =
        ((s.resume (.error .cancellation) v.desk).1, .ended .cancellation) := by
      simp only [Worker.interrupt, Worker.ofSweep, hended]
    have hstop : Application.shutDown true true (.sweeping s) v.desk =
        (.ok (), { ((s.resume (.error .cancellation) v.desk).1.log Worker.stoppedRecord) with
          store := (s.resume (.error .cancellation) v.desk).1.store.close }, .ended .cancellation) := by
      simp only [Application.shutDown, Worker.stop, hinterrupt]
      rfl
    rw [hstop]
    exact .closed (hcalm _ hw nofun) (by rw [hw, Worker.held?, ← hstore]) rfl
  | ended f =>
    cases hf : f.isCancellation with
    | true =>
      have hstop : Application.shutDown true true (.ended f) v.desk =
          (.ok (), { (v.desk.log Worker.stoppedRecord) with store := v.desk.store.close }, .ended f) := by
        simp only [Application.shutDown, Worker.stop, Worker.interrupt, hf]
        rfl
      rw [hstop]
      refine .closed (fun g hg => ?_) (by rw [hw]; rfl) rfl
      cases hw.symm.trans hg
      exact hf
    | false =>
      have hstop : Application.shutDown true true (.ended f) v.desk = (.error f, v.desk, .ended f) := by
        simp only [Application.shutDown, Worker.stop, Worker.interrupt, hf]
        rfl
      rw [hstop]
      exact .failed hw hf

/-- Whatever happened to the service, its worker does not run after the application was shut down. The
store is closed if and only if no failure had ended the worker; a message that was about to be sent is
handed back first, and nothing else changes in the store. Otherwise the failure is given on, and the
store stays open. -/
theorem shutDown_closes_iff (policy : Policy) {c : Crew} (hc : c.store.WellNumbered)
    (hopen : c.store.closed = false) (os : List Occurrence) :
    let v := (before c).after policy os
    ∃ outcome d w, Application.shutDown true true v.worker v.desk = (outcome, d, w) ∧
      w.isRunning = false ∧
      ((outcome = .ok () ∧ d.store.closed = true) ↔
        ∀ f, v.worker = .ended f → f.isCancellation = true) ∧
      (outcome = .ok () → d.store = (v.desk.store.withFreed v.worker.held?).close ∧
        ∀ id, v.worker.held? = some id → ∀ r, d.store.find? id = some r → r.claimedAt = none) ∧
      ∀ f, outcome = .error f → v.worker = .ended f ∧ d = v.desk ∧ d.store.closed = false := by
  intro v
  have horderly : v.Orderly := (orderly_before hc hopen).after os
  have hcloses := horderly.closes
  generalize Application.shutDown true true v.worker v.desk = result at hcloses ⊢
  cases hcloses with
  | @closed d w hcalm hstore hw =>
    have hclosed : d.store.closed = true := by
      rw [hstore]
      rfl
    refine ⟨_, d, w, rfl, hw, ⟨fun _ => hcalm, fun _ => ⟨rfl, hclosed⟩⟩, fun _ => ⟨hstore, ?_⟩, nofun⟩
    intro id hheld r hr
    rw [hstore, hheld] at hr
    have hfreed := Store.find?_modify_self Row.keepsId_freed v.desk.store id
    obtain ⟨row, -, rfl⟩ := Option.map_eq_some_iff.mp (hfreed.symm.trans hr)
    rfl
  | failed hw hf =>
    refine ⟨_, _, _, rfl, rfl, ⟨fun h => (by cases h.1), fun hcalm => ?_⟩, nofun, fun g hg => ?_⟩
    · cases (hcalm _ hw).symm.trans hf
    · cases hg
      exact ⟨hw, rfl, horderly.isOpen⟩

/-! ## A letter that is about to be sent, and a lease that is too long -/

/-- The worker is started when a letter is due, and waits for the messenger. -/
def startedAtOne : List Occurrence :=
  [.other (.dispatch (Crew.letter ["ann"]) (.int 5) .null), .other (.setClock Crew.oneOClock), .start,
    .wake]

def waitingAtOne : Service :=
  (before (Crew.idle Crew.noon)).after Crew.thrice startedAtOne

/-- The letter was claimed, and is free again when the store is closed. -/
theorem shutDown_closes_iff_letter :
    (waitingAtOne.desk.store.find? 1).map (·.claimedAt.isSome) = some true ∧
      ∃ d w, Application.shutDown true true waitingAtOne.worker waitingAtOne.desk = (.ok (), d, w) ∧
        d.store.closed = true ∧ ∀ r, d.store.find? 1 = some r → r.claimedAt = none := by
  have hclaimed : (waitingAtOne.desk.store.find? 1).map (·.claimedAt.isSome) = some true := by
    decide +kernel
  have hheld : waitingAtOne.worker.held? = some 1 := by decide +kernel
  obtain ⟨outcome, d, w, hresult, -, hcloses, hfreed, -⟩ := shutDown_closes_iff Crew.thrice
    (Crew.isFresh_idle Crew.noon).wellNumbered rfl startedAtOne
  have hcalm : ∀ f, waitingAtOne.worker = .ended f → f.isCancellation = true := by
    intro f hf
    rw [hf] at hheld
    cases hheld
  obtain ⟨rfl, hclosed⟩ := hcloses.mpr hcalm
  exact ⟨hclaimed, d, w, hresult, hclosed, (hfreed rfl).2 1 hheld⟩

/-- The worker is started with a lease that goes back beyond the first year. -/
def startedWithLongLease : Service :=
  (before (Crew.idle Crew.noon)).after ⟨3, .whole 100000000000, none, 15⟩ [.start, .wake]

/-- A failure ends the first sweep. It is given on when the application is shut down, and the store
stays open. -/
theorem shutDown_leaves_open :
    let result := Application.shutDown true true startedWithLongLease.worker startedWithLongLease.desk
    result.1.isOk = false ∧ result.2.1.store.closed = false := by
  decide +kernel

end Service

end Courier.Outbox
