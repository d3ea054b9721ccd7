import Courier.Proofs.Outbox.Retries
import Courier.Proofs.Outbox.Selection

/-!
# Stores that can be listed

While all rows can be read, a listing fails for no row. It gives the rows that are due in the order of
their times and, for one time, of their numbers; so a row is listed if few enough come before it.
-/

namespace Courier.Outbox

open Calendar (Instant Moment)

/-! ## Rows that can be read -/

/-- The row can be read, and what is read of it can be claimed, recorded and given up. -/
structure Row.Legible (r : Row) : Prop where
  tidy : r.Tidy
  isWord : Cell.isWord r.id = true
  recipients : ∃ recipients, loadList r.recipientsJson = .ok recipients

/-- A message that a store with legible rows shows. -/
structure Pending.Ready (p : Pending) : Prop where
  fits : p.Fits
  isWord : Cell.isWord p.id = true

namespace Row.Legible
variable {r : Row} (h : r.Legible)
include h

theorem readable : ∃ p, r.pending = .ok p := by
  obtain ⟨delivered, hdelivered⟩ := h.tidy.notes
  obtain ⟨recipients, hrecipients⟩ := h.recipients
  have hautomation : ∃ n, r.automationId.toInt? = .ok n := by
    rcases h.tidy.automation with hnull | ⟨n, hint, -⟩
    · exact ⟨none, by rw [hnull]; rfl⟩
    · exact ⟨some n, by rw [hint]; rfl⟩
  obtain ⟨n, hn⟩ := hautomation
  rw [Notes] at hdelivered
  simp only [pending, hn, hrecipients, hdelivered, bind, Except.bind]
  exact ⟨_, rfl⟩

theorem ready {p : Pending} (hp : r.pending = .ok p) : p.Ready :=
  ⟨h.tidy.fits hp, (pending_ok hp).1 ▸ h.isWord⟩

theorem claimed (claimedAt : String) : (r.claimed claimedAt).Legible :=
  ⟨h.tidy.of_eq rfl rfl, h.isWord, h.recipients⟩

theorem freed : r.freed.Legible :=
  ⟨h.tidy.of_eq rfl rfl, h.isWord, h.recipients⟩

theorem failed (text : String) : (r.failed text).Legible :=
  ⟨h.tidy.of_eq rfl rfl, h.isWord, h.recipients⟩

theorem noted (delivered : List String) (recipient : String) :
    (r.noted delivered recipient).Legible := by
  unfold Row.noted
  split
  · exact h
  · exact ⟨⟨⟨_, loadList_write_texts _⟩, h.tidy.automation⟩, h.isWord, h.recipients⟩

end Row.Legible

/-! ## Legible stores -/

/-- All rows can be read, and they are in the order of their numbers. -/
structure Store.Legible (st : Store) : Prop where
  rows : ∀ r ∈ st.rows, r.Legible
  sorted : st.rows.Pairwise fun r r' => r.id < r'.id

namespace Store

theorem legible_empty : empty.Legible :=
  ⟨fun _ h => absurd h List.not_mem_nil, List.Pairwise.nil⟩

variable {st st' : Store}

namespace Legible
variable (h : st.Legible)
include h

theorem of_rows (hrows : st'.rows = st.rows) : st'.Legible :=
  ⟨hrows ▸ h.rows, hrows ▸ h.sorted⟩

theorem insertLast (hst : st.WellNumbered) {row : Row} (hrow : row.Legible)
    (hid : row.id = st.lastId + 1) : (st.insertLast row).Legible := by
  constructor
  · intro r hr
    rcases List.mem_append.mp hr with hr | hr
    · exact h.rows r hr
    · exact List.mem_singleton.mp hr ▸ hrow
  · refine List.pairwise_append.mpr ⟨h.sorted, List.pairwise_singleton _ _, ?_⟩
    intro r hr r' hr'
    have hle := hst.le_lastId r hr
    rw [List.mem_singleton.mp hr']
    omega

theorem modify {change : Row → Row} (hid : KeepsId change)
    (hchange : ∀ r : Row, r.Legible → (change r).Legible) (id : Int) : (st.modify id change).Legible := by
  constructor
  · intro r' hr'
    obtain ⟨r, hr, rfl⟩ := List.mem_map.mp hr'
    split
    · exact hchange r (h.rows r hr)
    · exact h.rows r hr
  · refine List.pairwise_map.mpr (h.sorted.imp fun {r r'} hlt => ?_)
    have hkeeps (r : Row) : (if r.id = id then change r else r).id = r.id := by
      split
      · exact hid r
      · rfl
    rw [hkeeps, hkeeps]
    exact hlt

theorem remove (p : Row → Bool) : (st.remove p).Legible :=
  ⟨fun r hr => h.rows r (List.mem_filter.mp hr).1, h.sorted.sublist List.filter_sublist⟩

omit h in
theorem step {s s' : Sweep} {d : Desk} (h : d.store.Legible) (hstep : s.Step d s' st') :
    st'.Legible := by
  cases hstep with
  | still | finished | passed | stuck | absent | unnoted => exact h
  | claimed claimedAt => exact h.modify (Row.keepsId_claimed _) (fun _ hr => hr.claimed claimedAt) _
  | @noted _ recipient _ _ delivered =>
    exact h.modify (Row.keepsId_noted _ _) (fun _ hr => hr.noted delivered recipient) _
  | @released _ cause =>
    exact h.modify (Row.keepsId_failed _) (fun _ hr => hr.failed cause.message) _
  | returned => exact h.modify Row.keepsId_freed (fun _ hr => hr.freed) _
  | completed => exact h.remove _
  | confirmed _ hsame | reported _ hsame _ => exact h.of_rows hsame.rows

end Legible

/-- A message of texts is stored as a row that can be read. -/
theorem create_legible {now : Instant} {draft : Draft} {id : Int} {automationId : Option Int}
    {recipients : List String} (hautomation : draft.automationId = .ofOptionInt automationId)
    (hrecipients : draft.recipients = .list (recipients.map Value.text))
    (h : create now draft st = .ok (id, st')) :
    ∃ row, st' = st.insertLast row ∧ row.id = st.lastId + 1 ∧ row.Legible := by
  obtain ⟨_, items, row, -, hitems, hrow, hst', hid, hnew, hword⟩ := create_row h
  rw [hrecipients] at hitems
  cases hitems
  exact ⟨row, hst', hid.trans hnew, hrow.tidy hautomation, hid ▸ hword, recipients,
    hrow.reads_recipients⟩

/-! ## The place of a row in a listing -/

/-- The row is listed before another one. -/
def isListedBefore (r r' : Row) : Bool :=
  r.scheduledAt < r'.scheduledAt || (r.scheduledAt == r'.scheduledAt && r.id < r'.id)

/-- How many rows come before a row in a listing at an instant. -/
def rank (policy : Policy) (now : Instant) (r : Row) (st : Store) : Nat :=
  st.rows.countP fun r' =>
    isListedBefore r' r && isDue now.text (policy.lease.cutoffText now) policy.retryLimit r'

theorem pair_sublist_of_sorted {rows : List Row} (h : rows.Pairwise fun r r' => r.id < r'.id)
    {r r' : Row} (hr : r ∈ rows) (hr' : r' ∈ rows) (hlt : r.id < r'.id) : [r, r'].Sublist rows := by
  induction rows with
  | nil => cases hr
  | cons r₀ rows ih =>
    obtain ⟨hfirst, hrest⟩ := List.pairwise_cons.mp h
    rcases List.mem_cons.mp hr with rfl | hmem
    · rcases List.mem_cons.mp hr' with rfl | hmem'
      · omega
      · exact (List.singleton_sublist.mpr hmem').cons_cons r
    · rcases List.mem_cons.mp hr' with rfl | hmem'
      · have := hfirst r hmem
        omega
      · exact (ih hrest hmem hmem').cons r₀

/-- Of two items of a list without repetitions only one comes before the other. -/
theorem not_pair_sublist {rows : List Row} (h : rows.Nodup) {r r' : Row}
    (hpair : [r, r'].Sublist rows) : ¬ [r', r].Sublist rows := by
  have hplaces : rows.Pairwise fun r r' => rows.idxOf r < rows.idxOf r' := by
    rw [List.pairwise_iff_getElem]
    intro i j hi hj hij
    rwa [h.idxOf_getElem i hi, h.idxOf_getElem j hj]
  rw [List.pairwise_iff_forall_sublist] at hplaces
  intro hpair'
  exact Nat.lt_asymm (hplaces hpair) (hplaces hpair')

/-- Rows of one time are listed in the order in which they were. -/
theorem pairwise_isListedBefore {rows : List Row} (h : rows.Pairwise fun r r' => r.id < r'.id) :
    (rows.mergeSort scheduledBefore).Pairwise fun r r' => isListedBefore r r' = true := by
  have hperm := List.mergeSort_perm rows scheduledBefore
  have hids : (rows.mergeSort scheduledBefore).Pairwise fun r r' => r.id ≠ r'.id :=
    hperm.symm.pairwise (h.imp fun hlt => Int.ne_of_lt hlt) fun hne => hne.symm
  have hnodup : (rows.mergeSort scheduledBefore).Nodup :=
    hids.imp fun hne he => hne (congrArg Row.id he)
  rw [List.pairwise_iff_forall_sublist]
  intro r r' hpair
  have hbefore := List.pairwise_iff_forall_sublist.mp (pairwise_scheduledBefore rows) hpair
  have hid := List.pairwise_iff_forall_sublist.mp hids hpair
  have hr : r ∈ rows := hperm.mem_iff.mp (hpair.subset List.mem_cons_self)
  have hr' : r' ∈ rows := hperm.mem_iff.mp (hpair.subset (by simp))
  rw [scheduledBefore, decide_eq_true_iff] at hbefore
  rw [isListedBefore, Bool.or_eq_true, Bool.and_eq_true, decide_eq_true_iff, decide_eq_true_iff,
    beq_iff_eq]
  by_cases hsame : r.scheduledAt = r'.scheduledAt
  · refine Or.inr ⟨hsame, ?_⟩
    rw [← Int.not_le]
    intro hle
    have hback : scheduledBefore r' r = true := by
      apply decide_eq_true
      exact hsame ▸ String.le_refl _
    exact not_pair_sublist hnodup hpair (List.pair_sublist_mergeSort scheduledBefore_trans
      scheduledBefore_total hback (pair_sublist_of_sorted h hr' hr (by omega)))
  · left
    rw [← String.not_le]
    exact fun hle => hsame (String.le_antisymm hbefore hle)

/-- A row that is due is listed if fewer rows come before it than the limit allows. -/
theorem mem_dueRows_of_rank {policy : Policy} {now : Instant} {limit : Int} {r : Row}
    (h : st.Legible) (hlimit : 0 ≤ limit) (hr : r ∈ st.rows)
    (hdue : isDue now.text (policy.lease.cutoffText now) policy.retryLimit r = true)
    (hrank : (st.rank policy now r : Int) < limit) :
    r ∈ dueRows now.text (policy.lease.cutoffText now) policy.retryLimit limit st.rows := by
  rw [rank, ← List.countP_filter] at hrank
  rw [dueRows, takeLimit_eq hlimit]
  have hmem := List.mem_filter.mpr ⟨hr, hdue⟩
  have hordered := pairwise_isListedBefore (h.sorted.sublist (List.filter_sublist
    (p := isDue now.text (policy.lease.cutoffText now) policy.retryLimit)))
  generalize st.rows.filter (isDue now.text (policy.lease.cutoffText now) policy.retryLimit) = due at *
  have hperm := List.mergeSort_perm due scheduledBefore
  obtain ⟨before, rest, hsplit⟩ := List.append_of_mem (hperm.mem_iff.mpr hmem)
  rw [← hperm.countP_eq, hsplit, List.countP_append] at hrank
  rw [hsplit] at hordered ⊢
  have hbefore : before.countP (fun r' => isListedBefore r' r) = before.length :=
    List.countP_eq_length.mpr fun r' hr' =>
      (List.pairwise_append.mp hordered).2.2 r' hr' r List.mem_cons_self
  obtain ⟨n, hn⟩ : ∃ n, limit.toNat - before.length = n + 1 :=
    ⟨limit.toNat - before.length - 1, by omega⟩
  rw [List.take_append, hn, List.take_succ_cons]
  exact List.mem_append_right _ List.mem_cons_self

end Store

/-! ## Listing a legible store -/

namespace Sweep
variable {d : Desk} (hopen : d.store.closed = false) (h : d.store.Legible) {policy : Policy}
  {now : Moment} {t : Instant} (ht : now.utc? = some t) (hfits : policy.lease.Fits t)
  (hword : Cell.isWord policy.retryLimit = true)
include hopen h ht hfits hword

theorem list_of_legible :
    ∃ due, (Store.dueRows t.text (policy.lease.cutoffText t) policy.retryLimit listLimit
        d.store.rows).mapM Row.pending = .ok due ∧ list policy now d = ⟨policy, due, 0, .taking⟩ := by
  obtain ⟨due, hdue⟩ := mapM_pending_exists fun r hr =>
    (h.rows r (Store.mem_dueRows hr).1).readable
  refine ⟨due, hdue, ?_⟩
  rw [list, Store.listDue_eq hopen ht hfits hword rfl, hdue]

theorem ready_of_listed {p : Pending} (hp : p ∈ (list policy now d).due) : p.Ready := by
  obtain ⟨due, hdue, hlist⟩ := list_of_legible hopen h ht hfits hword
  rw [hlist] at hp
  obtain ⟨r, hr, hpending⟩ := (Store.mapM_pending_ok hdue).2 p hp
  exact (h.rows r (Store.mem_dueRows hr).1).ready hpending

/-- A sweep lists a row that is due, unless too many come before it. -/
theorem listed_of_rank {r : Row} (hr : r ∈ d.store.rows)
    (hdue : Store.isDue t.text (policy.lease.cutoffText t) policy.retryLimit r = true)
    (hrank : (d.store.rank policy t r : Int) < listLimit) :
    r.id ∈ (list policy now d).due.map (·.id) := by
  obtain ⟨due, hlisted, hlist⟩ := list_of_legible hopen h ht hfits hword
  rw [hlist, (Store.mapM_pending_ok hlisted).1]
  exact List.mem_map_of_mem (Store.mem_dueRows_of_rank h (by decide) hr hdue hrank)

end Sweep

end Courier.Outbox
