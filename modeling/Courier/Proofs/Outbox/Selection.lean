import Courier.Proofs.Crew.Basic
import Courier.Proofs.Outbox.Chronicle

/-!
# Listing by time

What is listed is selected and sorted by texts. On the rows of a chronicle this is the same as a
selection by instants: of the messages whose time has come, that may be tried once more and that nobody
holds, those scheduled the earliest.
-/

namespace Courier

open Calendar (Instant Moment)

theorem Calendar.Moment.utc?_ofInstant (t : Instant) : (ofInstant t).utc? = some t := by
  have ht := t.inRange
  simp [utc?, ofInstant, Instant.add?, Instant.ofMicros?, ht]

namespace Outbox

/-! ## Stale claims -/

namespace Lease

/-- The instant before which claims are stale. There is none if claims never become stale. -/
def cutoff? (lease : Lease) (now : Instant) : Option Instant :=
  if lease.isOff then .none
  else
    match lease.span with
    | .ok span => now.add? (-span)
    | .error _ => .none

/-- The calendar has the instant that lies the lease before now. -/
def Fits (lease : Lease) (now : Instant) : Prop :=
  lease.isOff = false → (lease.cutoff? now).isSome = true

instance (lease : Lease) (now : Instant) : Decidable (lease.Fits now) :=
  inferInstanceAs (Decidable (_ → _))

def isStale (lease : Lease) (now claimedAt : Instant) : Bool :=
  (lease.cutoff? now).any fun cutoff => claimedAt < cutoff

def cutoffText (lease : Lease) (now : Instant) : String :=
  ((lease.cutoff? now).map Instant.text).getD ""

theorem text_lt_cutoffText_iff (lease : Lease) (now claimedAt : Instant) :
    claimedAt.text < lease.cutoffText now ↔ lease.isStale now claimedAt = true := by
  rw [cutoffText, isStale]
  cases lease.cutoff? now with
  | none => exact iff_of_false claimedAt.not_text_lt_empty Bool.false_ne_true
  | some cutoff => exact Instant.text_lt_iff.trans decide_eq_true_iff.symm

end Lease

theorem instantOf_eq {now : Moment} {t : Instant} (ht : now.utc? = some t) :
    instantOf now = .ok t := by
  rw [instantOf, ht]

theorem instantOf_ofInstant (t : Instant) : instantOf (.ofInstant t) = .ok t :=
  instantOf_eq (Calendar.Moment.utc?_ofInstant t)

theorem staleCutoff_eq {lease : Lease} {now : Moment} {t : Instant} (ht : now.utc? = some t)
    (hfits : lease.Fits t) : staleCutoff now lease = .ok (lease.cutoffText t) := by
  cases hoff : lease.isOff with
  | true => rw [Store.staleCutoff_off hoff, Lease.cutoffText, Lease.cutoff?, if_pos hoff]; rfl
  | false =>
    have hcutoff := hfits hoff
    unfold Lease.cutoff? at hcutoff
    rw [if_neg (by simp [hoff])] at hcutoff
    cases hspan : lease.span with
    | error f => simp [hspan] at hcutoff
    | ok span =>
      obtain ⟨u, hu⟩ := Option.isSome_iff_exists.mp (by simpa [hspan] using hcutoff)
      simp [staleCutoff, Lease.cutoffText, Lease.cutoff?, hoff, hspan, hu, instantOf_eq ht, earlier,
        bind, Except.bind, pure, Except.pure]

/-- A claim is compared with the cutoff as instants are. -/
theorem Times.Records.isClaimable_eq {times : Times} {r : Row} (h : times.Records r) (lease : Lease)
    (t : Instant) :
    Store.isClaimable (lease.cutoffText t) r = (times.claimed r.id).all (lease.isStale t) := by
  have hclaimed := h.claimed
  unfold Store.isClaimable
  cases hu : times.claimed r.id with
  | none => simp [hclaimed, hu]
  | some u =>
    rw [hu] at hclaimed
    simp only [hclaimed, Option.map_some, Option.all_some]
    rw [Bool.eq_iff_iff, decide_eq_true_iff, lease.text_lt_cutoffText_iff]

/-! ## Selections -/

/-- Whether a row is to be listed at a time. -/
def Times.isEligible (times : Times) (now : Instant) (lease : Lease) (retryLimit : Int) (r : Row) :
    Bool :=
  (times.claimed r.id).all (lease.isStale now) && (times.scheduled r.id).any (fun t => t ≤ now) &&
    r.attempts < retryLimit

/-- One row is scheduled no later than another. -/
def Times.NoLater (times : Times) (r r' : Row) : Prop :=
  ∃ t t', times.scheduled r.id = some t ∧ times.scheduled r'.id = some t' ∧ t ≤ t'

/-- Rows of a store that have a property, in the order of their times: as many as a limit allows, and
none that is left out is scheduled before one that is not. -/
structure Chronicle.Selects (c : Chronicle) (eligible : Row → Bool) (limit : Int)
    (selected : List Row) : Prop where
  ordered : selected.Pairwise c.NoLater
  distinct : (selected.map (·.id)).Nodup
  length : selected.length = min limit.toNat (c.store.rows.countP eligible)
  mem : ∀ r ∈ selected, r ∈ c.store.rows ∧ eligible r = true
  earliest : ∀ r ∈ selected, ∀ r' ∈ c.store.rows, eligible r' = true → r' ∉ selected → c.NoLater r r'

theorem Times.Records.isDue_eq {times : Times} {r : Row} (h : times.Records r) (t : Instant)
    (lease : Lease) (retryLimit : Int) :
    Store.isDue t.text (lease.cutoffText t) retryLimit r =
      times.isEligible t lease retryLimit r := by
  obtain ⟨u, hu, htext⟩ := h.scheduled
  rw [Store.isDue, h.isClaimable_eq, Times.isEligible, hu, htext]
  simp [Instant.text_le_iff]

theorem Times.Records.noLater_iff {times : Times} {r r' : Row} (h : times.Records r)
    (h' : times.Records r') : times.NoLater r r' ↔ Store.scheduledBefore r r' = true := by
  obtain ⟨t, ht, htext⟩ := h.scheduled
  obtain ⟨t', ht', htext'⟩ := h'.scheduled
  rw [Store.scheduledBefore, htext, htext', decide_eq_true_iff, Instant.text_le_iff]
  constructor
  · rintro ⟨u, u', hu, hu', hle⟩
    rw [ht] at hu
    rw [ht'] at hu'
    cases hu
    cases hu'
    exact hle
  · exact fun hle => ⟨t, t', ht, ht', hle⟩

namespace Store

theorem scheduledBefore_trans (r r' r'' : Row) (h : scheduledBefore r r' = true)
    (h' : scheduledBefore r' r'' = true) : scheduledBefore r r'' = true := by
  rw [scheduledBefore, decide_eq_true_iff] at *
  exact String.le_trans h h'

theorem scheduledBefore_total (r r' : Row) :
    (scheduledBefore r r' || scheduledBefore r' r) = true := by
  have htotal := String.le_total r.scheduledAt r'.scheduledAt
  simpa [scheduledBefore] using htotal

theorem pairwise_scheduledBefore (rows : List Row) :
    (rows.mergeSort scheduledBefore).Pairwise fun r r' => scheduledBefore r r' = true :=
  List.pairwise_mergeSort scheduledBefore_trans scheduledBefore_total rows

theorem takeLimit_eq {limit : Int} (h : 0 ≤ limit) (rows : List Row) :
    takeLimit limit rows = rows.take limit.toNat := by
  rw [takeLimit, if_neg (Int.not_lt.mpr h)]

end Store

namespace Chronicle
variable {c : Chronicle}

/-- The rows that are due by their texts are those that are eligible by their times. -/
theorem Faithful.selects_dueRows (h : c.Faithful) (t : Instant) (lease : Lease) (retryLimit : Int)
    {limit : Int} (hlimit : 0 ≤ limit) :
    c.Selects (c.isEligible t lease retryLimit) limit
      (Store.dueRows t.text (lease.cutoffText t) retryLimit limit c.store.rows) := by
  have hfilter : c.store.rows.filter (Store.isDue t.text (lease.cutoffText t) retryLimit) =
      c.store.rows.filter (c.isEligible t lease retryLimit) :=
    List.filter_congr fun r hr => (h.records r hr).isDue_eq t lease retryLimit
  rw [Store.dueRows, Store.takeLimit_eq hlimit, hfilter]
  have hperm := List.mergeSort_perm (c.store.rows.filter (c.isEligible t lease retryLimit))
    Store.scheduledBefore
  have hsorted := Store.pairwise_scheduledBefore
    (c.store.rows.filter (c.isEligible t lease retryLimit))
  generalize (c.store.rows.filter (c.isEligible t lease retryLimit)).mergeSort
    Store.scheduledBefore = sorted at hperm hsorted
  have hmem (r : Row) :
      r ∈ sorted ↔ r ∈ c.store.rows ∧ c.isEligible t lease retryLimit r = true := by
    rw [hperm.mem_iff, List.mem_filter]
  have hordered : sorted.Pairwise c.NoLater := by
    refine hsorted.imp_of_mem fun hr hr' hbefore => ?_
    exact ((h.records _ ((hmem _).mp hr).1).noLater_iff (h.records _ ((hmem _).mp hr').1)).mpr hbefore
  have hsplit := List.take_append_drop limit.toNat sorted
  rw [← hsplit, List.pairwise_append] at hordered
  obtain ⟨htaken, -, hacross⟩ := hordered
  constructor
  · exact htaken
  · have hnodup := (hperm.map (·.id)).nodup_iff.mpr
      (h.wellNumbered.nodup.sublist (List.filter_sublist.map _))
    exact hnodup.sublist ((List.take_sublist _ _).map _)
  · rw [List.length_take, hperm.length_eq, List.countP_eq_length_filter]
  · exact fun r hr => (hmem r).mp (List.mem_of_mem_take hr)
  · intro r hr r' hr' heligible hleft
    have hsorted' := (hmem r').mpr ⟨hr', heligible⟩
    rw [← hsplit, List.mem_append] at hsorted'
    exact hacross r hr r' (hsorted'.resolve_left hleft)

end Chronicle

namespace Store
variable {st : Store} (hopen : st.closed = false) {now : Moment} {t : Instant}
  (ht : now.utc? = some t) {lease : Lease} (hfits : lease.Fits t) {retryLimit limit : Int}
include hopen ht hfits

theorem listDue_eq (hretry : Cell.isWord retryLimit = true) (hlimit : Cell.isWord limit = true) :
    st.listDue now retryLimit limit lease =
      (dueRows t.text (lease.cutoffText t) retryLimit limit st.rows).mapM Row.pending := by
  simp [listDue, instantOf_eq ht, staleCutoff_eq ht hfits, checkOpen, hopen, checkWord, hretry, hlimit,
    bind, Except.bind]

/-- Limits that no column holds are refused. -/
theorem listDue_refused (hwide : (Cell.isWord retryLimit && Cell.isWord limit) = false) :
    st.listDue now retryLimit limit lease = .error .columnIntegerTooLarge := by
  simp only [listDue, instantOf_eq ht, staleCutoff_eq ht hfits, checkOpen, hopen, checkWord, bind,
    Except.bind]
  cases hretry : Cell.isWord retryLimit with
  | false => rfl
  | true =>
    rw [hretry, Bool.true_and] at hwide
    rw [hwide]
    rfl

end Store

theorem mapM_pending_exists {rows : List Row} (h : ∀ r ∈ rows, ∃ p, r.pending = .ok p) :
    ∃ due, rows.mapM Row.pending = .ok due := by
  induction rows with
  | nil => exact ⟨[], rfl⟩
  | cons r rows ih =>
    obtain ⟨p, hp⟩ := h r List.mem_cons_self
    obtain ⟨due, hdue⟩ := ih fun r' hr' => h r' (List.mem_cons_of_mem r hr')
    refine ⟨p :: due, ?_⟩
    rw [List.mapM_cons, hp, hdue]
    rfl

namespace Chronicle
variable {c : Chronicle}

theorem Faithful.listDue_eq (h : c.Faithful) {now : Moment} {t : Instant} (ht : now.utc? = some t)
    {lease : Lease} (hfits : lease.Fits t) {retryLimit limit : Int}
    (hretry : Cell.isWord retryLimit = true) (hlimit : Cell.isWord limit = true) :
    c.store.listDue now retryLimit limit lease =
      (Store.dueRows t.text (lease.cutoffText t) retryLimit limit c.store.rows).mapM Row.pending :=
  Store.listDue_eq h.isOpen ht hfits hretry hlimit

theorem Faithful.listDue_refused (h : c.Faithful) {now : Moment} {t : Instant}
    (ht : now.utc? = some t) {lease : Lease} (hfits : lease.Fits t) {retryLimit limit : Int}
    (hwide : (Cell.isWord retryLimit && Cell.isWord limit) = false) :
    c.store.listDue now retryLimit limit lease = .error .columnIntegerTooLarge :=
  Store.listDue_refused h.isOpen ht hfits hwide

/-- Along every history of the store the earliest of the messages that are to be sent are listed, in
the order of their instants. Only limits that no column holds are refused. -/
theorem listing_follows_time (requests : List Request) {now : Moment} {t : Instant}
    (ht : now.utc? = some t) (retryLimit : Int) {limit : Int} (hlimit : 0 ≤ limit) {lease : Lease}
    (hlease : lease.Fits t) :
    let c := blank.after requests
    (Cell.isWord retryLimit = true → Cell.isWord limit = true →
      ∃ selected due, c.Selects (c.isEligible t lease retryLimit) limit selected ∧
        selected.mapM Row.pending = .ok due ∧
        c.store.listDue now retryLimit limit lease = .ok due) ∧
    ((Cell.isWord retryLimit && Cell.isWord limit) = false →
      c.store.listDue now retryLimit limit lease = .error .columnIntegerTooLarge) ∧
    ∀ s u : Instant, s.text < u.text ↔ s < u := by
  intro c
  have hc : c.Faithful := after_faithful faithful_blank requests
  refine ⟨fun hretry hword => ?_, hc.listDue_refused ht hlease, fun s u => Instant.text_lt_iff⟩
  have hselects := hc.selects_dueRows t lease retryLimit hlimit
  have hreadable := mapM_pending_exists fun r hr => (hc.records r (hselects.mem r hr).1).readable
  obtain ⟨due, hdue⟩ := hreadable
  exact ⟨_, due, hselects, hdue, (hc.listDue_eq ht hlease hretry hword).trans hdue⟩

/-- Two messages. The one scheduled earlier was claimed an hour before the other one is to be sent. -/
def twoReminders : List Request :=
  [.create Crew.noon none "Hello" "See you at six." ["ann"] (.ofInstant Crew.oneOClock),
    .create Crew.noon (some 7) "Hello" "See you at five." ["ben"] (.ofInstant Crew.noon),
    .claim 2 (.ofInstant Crew.noon) .none]

theorem listing_follows_time_twoReminders :
    (Moment.ofInstant Crew.oneOClock).utc? = some Crew.oneOClock ∧
      (Lease.whole 60).Fits Crew.oneOClock ∧
      let c := blank.after twoReminders
      c.store.rows.countP (c.isEligible Crew.oneOClock (.whole 60) 3) = 2 ∧
        ∃ selected due, c.Selects (c.isEligible Crew.oneOClock (.whole 60) 3) 1 selected ∧
          selected.mapM Row.pending = .ok due ∧
          c.store.listDue (.ofInstant Crew.oneOClock) 3 1 (.whole 60) = .ok due := by
  have ht : (Moment.ofInstant Crew.oneOClock).utc? = some Crew.oneOClock := by decide +kernel
  have hlease : (Lease.whole 60).Fits Crew.oneOClock := by decide +kernel
  refine ⟨ht, hlease, by decide +kernel, ?_⟩
  exact (listing_follows_time twoReminders ht 3 (by decide) hlease).1 rfl rfl

/-- A message is due, but a limit that no column holds is refused. -/
theorem wide_retryLimit_is_refused :
    (Moment.ofInstant Crew.oneOClock).utc? = some Crew.oneOClock ∧
      Lease.none.Fits Crew.oneOClock ∧
      let c := blank.after [.create Crew.noon none "Hello" "See you at five." ["ann"]
        (.ofInstant Crew.noon)]
      c.store.rows.countP (c.isEligible Crew.oneOClock .none Cell.wordBound) = 1 ∧
        ¬ ∃ selected due, c.Selects (c.isEligible Crew.oneOClock .none Cell.wordBound) 100 selected ∧
          selected.mapM Row.pending = .ok due ∧
          c.store.listDue (.ofInstant Crew.oneOClock) Cell.wordBound 100 .none = .ok due := by
  have ht : (Moment.ofInstant Crew.oneOClock).utc? = some Crew.oneOClock := by decide +kernel
  have hlease : Lease.none.Fits Crew.oneOClock := by decide +kernel
  refine ⟨ht, hlease, by decide +kernel, ?_⟩
  rintro ⟨selected, due, -, -, hdue⟩
  have hfaithful := after_faithful faithful_blank
    [.create Crew.noon none "Hello" "See you at five." ["ann"] (.ofInstant Crew.noon)]
  have hwide : (Cell.isWord Cell.wordBound && Cell.isWord 100) = false := rfl
  cases (hfaithful.listDue_refused ht hlease hwide).symm.trans hdue

end Chronicle

end Outbox

end Courier
