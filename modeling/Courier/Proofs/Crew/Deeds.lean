import Courier.Proofs.Crew.Steps
import Courier.Proofs.Outbox.Failures

/-!
# Runs with errands

Besides the turns of a crew, others may act on single messages through the store, and record events. A
run of deeds has both, in any order.
-/

namespace Courier.Outbox

/-- An operation on the store by somebody who is no sweep. -/
inductive Errand where
  | claim (id : Int) (now : Calendar.Moment) (lease : Lease)
  | unclaim (id : Int)
  | mark (id : Int) (recipient : Value)
  | complete (id : Int)
  | release (id : Int) (errorText : String)
  | record (entry : Entry)

inductive Deed where
  | turn (t : Turn)
  | errand (e : Errand)

/-- The message that an errand acts on. -/
def Errand.id? : Errand → Option Int
  | .claim id _ _ | .unclaim id | .mark id _ | .complete id | .release id _ => some id
  | .record _ => none

/-! ## What an errand keeps -/

/-- The rows have distinct numbers as before, and no number was given. -/
structure Store.Upkeep (st st' : Store) : Prop where
  wellNumbered : st'.WellNumbered
  lastId : st'.lastId = st.lastId
  closed : st'.closed = st.closed

/-- Nothing but one row changed. -/
inductive Store.Changed (id : Int) (st : Store) : Store → Prop where
  | nothing : Changed id st st
  | modified {change : Row → Row} (hc : KeepsId change) : Changed id st (st.modify id change)
  | removed : Changed id st (st.remove fun r => r.id == id)

namespace Store
variable {st st' : Store} {id : Int}

theorem Changed.upkeep (h : Changed id st st') (hst : st.WellNumbered) : st.Upkeep st' := by
  cases h with
  | nothing => exact ⟨hst, rfl, rfl⟩
  | modified hc => exact ⟨wellNumbered_modify hst hc id, rfl, rfl⟩
  | removed => exact ⟨wellNumbered_remove hst _, rfl, rfl⟩

theorem Changed.others (h : Changed id st st') (hst : st.WellNumbered) {k : Int} (hk : id ≠ k) :
    st'.find? k = st.find? k := by
  cases h with
  | nothing => rfl
  | modified hc => rw [find?_modify hc, if_neg (Ne.symm hk)]
  | removed =>
    rw [find?_remove hst]
    cases hr : st.find? k with
    | none => rfl
    | some r => rw [Option.filter_some_pos (by simp [id_of_find? hr, Ne.symm hk])]

theorem Changed.events (h : Changed id st st') : st'.events = st.events := by
  cases h with
  | nothing | modified | removed => rfl

theorem changed_claim (hst : st.WellNumbered) {now : Calendar.Moment} {lease : Lease} {b : Bool}
    (h : claim id now lease st = .ok (b, st')) : Changed id st st' := by
  obtain ⟨-, claimedAt, cutoff, -, ⟨-, -, rfl⟩ | ⟨-, -, rfl⟩⟩ := claim_ok hst h
  · exact .modified (Row.keepsId_claimed claimedAt)
  · exact .nothing

theorem changed_unclaim {u : Unit} (h : unclaim id st = .ok (u, st')) : Changed id st st' := by
  rw [unclaim_of_admits (admits_of_checks h)] at h
  cases h
  exact .modified Row.keepsId_freed

theorem changed_mark {recipient : Value} {u : Unit} (h : mark id recipient st = .ok (u, st')) :
    Changed id st st' := by
  rw [mark, checks_of_admits (admits_of_checks h)] at h
  split at h
  · cases h
    exact .nothing
  · obtain ⟨delivered, -, h⟩ := bind_eq_ok.mp h
    split at h
    · cases h
      exact .nothing
    · cases h
      apply Changed.modified
      intro r
      rfl

theorem changed_complete {u : Unit} (h : complete id st = .ok (u, st')) : Changed id st st' := by
  rw [complete_of_admits (admits_of_checks h)] at h
  cases h
  exact .removed

theorem changed_release {errorText : String} {attempts : Int}
    (h : release id errorText st = .ok (attempts, st')) : Changed id st st' := by
  rw [release_of_admits (admits_of_checks h)] at h
  cases h
  exact .modified (Row.keepsId_failed errorText)

theorem upkeep_record (hst : st.WellNumbered) {now : Calendar.Instant} {entry : Entry} {u : Unit}
    (h : record now entry st = .ok (u, st')) : st.Upkeep st' := by
  obtain ⟨hrows, hlastId, hclosed⟩ := record_ok h
  refine ⟨⟨hrows ▸ hst.nodup, fun r hr => ?_⟩, hlastId, hclosed⟩
  rw [hlastId]
  exact hst.le_lastId r (hrows ▸ hr)

end Store

namespace Crew

def errand (c : Crew) : Errand → Crew
  | .claim id now lease => c.perform (Store.claim id now lease)
  | .unclaim id => c.perform (Store.unclaim id)
  | .mark id recipient => c.perform (Store.mark id recipient)
  | .complete id => c.perform (Store.complete id)
  | .release id errorText => c.perform (Store.release id errorText)
  | .record entry => c.perform (Store.record c.desk.now entry)

theorem perform_sweeps {α : Type} (operation : Operation α) (c : Crew) :
    (c.perform operation).sweeps = c.sweeps := by
  rcases perform_cases operation c with he | ⟨_, _, -, he⟩
  · rw [he]
  · rw [he]

theorem errand_sweeps (c : Crew) (e : Errand) : (c.errand e).sweeps = c.sweeps := by
  cases e with
  | claim | unclaim | mark | complete | release | record => exact perform_sweeps _ c

variable {c : Crew}

theorem perform_changed {α : Type} {operation : Operation α} {id : Int}
    (h : ∀ a st, operation c.store = .ok (a, st) → c.store.Changed id st) :
    c.store.Changed id (c.perform operation).store := by
  rcases perform_cases operation c with he | ⟨a, st, hok, he⟩
  · rw [he]
    exact .nothing
  · rw [he]
    exact h a st hok

theorem errand_changed (hc : c.store.WellNumbered) {e : Errand} {id : Int} (he : e.id? = some id) :
    c.store.Changed id (c.errand e).store := by
  cases e with
  | claim =>
    cases he
    exact perform_changed fun _ _ => Store.changed_claim hc
  | unclaim =>
    cases he
    exact perform_changed fun _ _ => Store.changed_unclaim
  | mark =>
    cases he
    exact perform_changed fun _ _ => Store.changed_mark
  | complete =>
    cases he
    exact perform_changed fun _ _ => Store.changed_complete
  | release =>
    cases he
    exact perform_changed fun _ _ => Store.changed_release
  | record => cases he

theorem errand_upkeep (hc : c.store.WellNumbered) (e : Errand) :
    c.store.Upkeep (c.errand e).store := by
  cases e with
  | claim | unclaim | mark | complete | release => exact (errand_changed hc rfl).upkeep hc
  | record entry =>
    rw [errand]
    rcases perform_cases (Store.record c.desk.now entry) c with he | ⟨_, _, hok, he⟩
    · rw [he]
      exact ⟨hc, rfl, rfl⟩
    · rw [he]
      exact Store.upkeep_record hc hok

/-! ## Deeds -/

def deed (c : Crew) : Deed → Crew
  | .turn t => c.turn t
  | .errand e => c.errand e

def doing (c : Crew) (ds : List Deed) : Crew :=
  ds.foldl deed c

/-- What an observer of turns sees along a run of deeds. -/
def watch {α : Type} (observer : Crew → Turn → Option α) : Crew → List Deed → List α
  | _, [] => []
  | c, .turn t :: ds => (observer c t).toList ++ watch observer (c.turn t) ds
  | c, .errand e :: ds => watch observer (c.errand e) ds

theorem watch_cons {α : Type} (observer : Crew → Turn → Option α) (c : Crew) (d : Deed)
    (ds : List Deed) :
    c.watch observer (d :: ds) = c.watch observer [d] ++ (c.deed d).watch observer ds := by
  cases d with
  | turn t => simp [watch, deed]
  | errand e => simp [watch, deed]

theorem deed_wellNumbered (hc : c.store.WellNumbered) (d : Deed) : (c.deed d).store.WellNumbered := by
  cases d with
  | turn t => exact (turn_step hc t).wellNumbered hc
  | errand e => exact (errand_upkeep hc e).wellNumbered

theorem deed_closed (hc : c.store.WellNumbered) (d : Deed) :
    (c.deed d).store.closed = c.store.closed := by
  cases d with
  | turn t => exact (turn_step hc t).closed_eq
  | errand e => exact (errand_upkeep hc e).closed

/-- A turn that is not one of a sweep leaves the sweeps as they are. -/
theorem turn_sweeps (c : Crew) {t : Turn} (ht : t.sweep? = none)
    (hjoin : ∀ policy now, t ≠ .join policy now) : (c.turn t).sweeps = c.sweeps := by
  cases t with
  | setClock => rfl
  | create | cancel | cancelAll => exact perform_sweeps _ c
  | dispatch payload delay automationId =>
    rw [turn, dispatch]
    split
    · rfl
    · rfl
  | join policy now => exact absurd rfl (hjoin policy now)
  | advance | answer => cases ht

end Crew

end Courier.Outbox
