import Courier.Proofs.Outbox.Selection

/-!
# The window of a lease

A message that was claimed stays with the one who claimed it until the lease is over by which another
one asks for it. Listing goes by the same rule as claiming: what is listed can be claimed, and once it
was claimed it cannot be claimed again at the same time.
-/

namespace Courier.Number.Binary64

/-! ## Numbers without a sign -/

def Unsigned : Binary64 → Prop
  | nan => True
  | infinite negative => negative = false
  | finite negative _ _ => negative = false

theorem unsigned_ofRatio (q : Ratio) : (ofRatio false q).Unsigned := by
  unfold ofRatio
  split
  · rfl
  · dsimp only
    split <;> split <;> rfl

variable {x : Binary64}

theorem Unsigned.fraction (h : x.Unsigned) : x.fraction.Unsigned := by
  cases x with
  | nan => trivial
  | infinite negative => exact h
  | finite negative mantissa exponent =>
    cases h
    exact unsigned_ofRatio _

theorem Unsigned.timesNat (h : x.Unsigned) (n : Nat) : (x.timesNat n).Unsigned := by
  cases x with
  | nan => trivial
  | infinite negative => exact h
  | finite negative mantissa exponent =>
    cases h
    exact unsigned_ofRatio _

theorem Unsigned.truncate_nonneg (h : x.Unsigned) : 0 ≤ x.truncate?.getD 0 := by
  cases x with
  | nan | infinite => exact Int.le_refl 0
  | finite negative mantissa exponent =>
    cases h
    exact Int.natCast_nonneg _

theorem Unsigned.round_nonneg (h : x.Unsigned) : 0 ≤ x.round?.getD 0 := by
  cases x with
  | nan | infinite => exact Int.le_refl 0
  | finite negative mantissa exponent =>
    cases h
    exact Int.natCast_nonneg _

end Courier.Number.Binary64

namespace Courier.Span

theorem ofMicros_ok {micros span : Int} (h : ofMicros micros = .ok span) : span = micros := by
  simp only [ofMicros] at h
  split at h
  · cases h
  · split at h
    · cases h
    · cases h
      rfl

/-- A span that is no longer than the calendar is accepted. -/
theorem ofMicros_of_le {micros : Int} (h : micros.natAbs ≤ Calendar.endOfTime) :
    ofMicros micros = .ok micros := by
  have hbound : Calendar.endOfTime = 3652059 * 86400000000 := rfl
  have hday : ((Calendar.microsPerDay : Nat) : Int) = 86400000000 := rfl
  rw [hbound] at h
  have hdays : micros.fdiv Calendar.microsPerDay = micros / 86400000000 := by
    rw [Int.fdiv_eq_ediv_of_nonneg _ (by omega), hday]
  simp only [ofMicros, hdays, wordBound, maxDays]
  rw [if_neg (by omega), if_neg (by omega)]

theorem ofRealSeconds_nonneg {x : Number.Binary64} (hx : x.Unsigned) {span : Int}
    (h : ofRealSeconds x = .ok span) : 0 ≤ span := by
  cases x with
  | nan => cases h
  | infinite negative => cases h
  | finite negative mantissa exponent =>
    rw [ofMicros_ok h]
    have hwhole := hx.truncate_nonneg
    have hrest := (hx.fraction.timesNat Calendar.microsPerSecond).round_nonneg
    have hscaled : 0 ≤ (Number.Binary64.finite negative mantissa exponent).truncate?.getD 0 *
        (Calendar.microsPerSecond : Int) :=
      Int.mul_nonneg hwhole (Int.natCast_nonneg _)
    omega

end Courier.Span

namespace Courier.Outbox

open Calendar (Instant Moment)

/-! ## When a lease is over -/

namespace Lease
variable {lease : Lease} {claimedAt now : Instant} {span : Int}

/-- By this lease a claim of one instant is stale at another. A lease that is off is never over. -/
def IsOver (lease : Lease) (claimedAt now : Instant) : Prop :=
  lease.isOff = false ∧ ∃ span, lease.span = .ok span ∧ claimedAt.micros + span < now.micros

theorem span_nonneg (hon : lease.isOff = false) (hspan : lease.span = .ok span) : 0 ≤ span := by
  cases lease with
  | none => cases hon
  | whole seconds =>
    have hpos : 0 < seconds := by simpa [isOff] using hon
    rw [Span.ofMicros_ok hspan]
    exact Int.mul_nonneg (Int.le_of_lt hpos) (Int.natCast_nonneg _)
  | real seconds =>
    refine Span.ofRealSeconds_nonneg ?_ hspan
    simp only [isOff, Bool.or_eq_false_iff] at hon
    cases seconds with
    | nan => trivial
    | infinite negative => exact hon.2
    | finite negative mantissa exponent =>
      simp only [Number.Binary64.isNonPositive, Bool.or_eq_false_iff] at hon
      exact hon.2.1

/-- No lease is over as soon as it starts. -/
theorem not_isOver_self (lease : Lease) (t : Instant) : ¬ lease.IsOver t t := by
  rintro ⟨hon, span, hspan, hlt⟩
  have := span_nonneg hon hspan
  omega

theorem micros_of_add? {t u : Instant} {micros : Int} (h : t.add? micros = some u) :
    (u.micros : Int) = t.micros + micros := by
  simp only [Instant.add?, Instant.ofMicros?] at h
  split at h
  · split at h
    · cases h
    · cases h
      dsimp only
      omega
  · cases h

theorem isStale_iff (hfits : lease.Fits now) :
    lease.isStale now claimedAt = true ↔ lease.IsOver claimedAt now := by
  cases hon : lease.isOff with
  | true => simp [isStale, IsOver, cutoff?, hon]
  | false =>
    obtain ⟨cutoff, hcutoff⟩ := Option.isSome_iff_exists.mp (hfits hon)
    rw [isStale, hcutoff, Option.any_some, decide_eq_true_iff]
    rw [cutoff?, if_neg (by simp [hon])] at hcutoff
    cases hspan : lease.span with
    | error f => simp [hspan] at hcutoff
    | ok span =>
      rw [hspan] at hcutoff
      have hmicros := micros_of_add? hcutoff
      constructor
      · intro hlt
        have hlt' : claimedAt.micros < cutoff.micros := hlt
        exact ⟨hon, span, hspan, by omega⟩
      · rintro ⟨-, span', hspan', hlt⟩
        rw [hspan] at hspan'
        cases hspan'
        show claimedAt.micros < cutoff.micros
        omega

end Lease

/-! ## Held messages -/

namespace Chronicle
variable {c : Chronicle} {id : Int} {t : Instant}

/-- A message is there, and the claim that holds it was made at an instant. -/
structure Holds (id : Int) (t : Instant) (c : Chronicle) : Prop where
  present : ∃ r, c.store.find? id = some r
  claimed : c.claimed id = some t

/-- A request ends a claim of a message: it gives the claim up, takes it over or deletes the message. -/
def Ends (id : Int) (c : Chronicle) : Request → Prop
  | .unclaim k | .complete k | .release k _ => k = id
  | .claim k now lease => k = id ∧ ∃ store, Store.claim k now lease c.store = .ok (true, store)
  | _ => False

/-- No request of a list ends a claim of a message. -/
def Undisturbed (id : Int) : Chronicle → List Request → Prop
  | _, [] => True
  | c, q :: requests => ¬ c.Ends id q ∧ Undisturbed id (c.serve q) requests

theorem serve_claim {now : Moment} {lease : Lease} {store : Store} (h : c.Faithful)
    (ht : now.utc? = some t) (hclaim : Store.claim id now lease c.store = .ok (true, store)) :
    (c.serve (.claim id now lease)).Holds id t ∧ (c.serve (.claim id now lease)).store = store := by
  obtain ⟨t', cutoff, ht', hcutoff, hadmits⟩ := Store.claim_given hclaim
  rw [ht] at ht'
  cases ht'
  have heq := Store.claim_eq h.wellNumbered ht hcutoff hadmits
  rw [hclaim] at heq
  obtain ⟨hgranted, hstore⟩ := Prod.mk.inj (Except.ok.inj heq)
  rw [← hgranted, if_pos rfl] at hstore
  obtain ⟨r, hr, -⟩ := (Option.any_eq_true ..).mp hgranted.symm
  have hserve : c.serve (.claim id now lease) = ⟨c.setClaim id (some t), store⟩ := by
    rw [serve, enter, hclaim, ht]
    rfl
  rw [hserve]
  refine ⟨⟨?_, if_pos rfl⟩, rfl⟩
  exact ⟨_, by rw [hstore, Store.find?_modify_self (Row.keepsId_claimed _), hr]; rfl⟩

namespace Holds

theorem modify (h : c.Holds id t) {k : Int} {change : Row → Row} (hc : Store.KeepsId change) :
    Holds id t ⟨c.toTimes, c.store.modify k change⟩ := by
  obtain ⟨r, hr⟩ := h.present
  refine ⟨?_, h.claimed⟩
  rw [Store.find?_modify hc, hr]
  split
  · exact ⟨change r, rfl⟩
  · exact ⟨r, rfl⟩

theorem setClaim (h : c.Holds id t) {k : Int} (hk : k ≠ id) (u : Option Instant)
    {change : Row → Row} (hc : Store.KeepsId change) :
    Holds id t ⟨c.setClaim k u, c.store.modify k change⟩ := by
  refine ⟨(h.modify hc).present, ?_⟩
  simp only [Times.setClaim, if_neg (Ne.symm hk)]
  exact h.claimed

/-- Only rows that are not claimed are deleted when messages are cancelled. -/
theorem remove (h : c.Holds id t) (hc : c.Faithful) {p : Row → Bool}
    (hp : ∀ r, r.id = id → r.claimedAt = some t.text → p r = false) :
    Holds id t ⟨c.toTimes, c.store.remove p⟩ := by
  obtain ⟨r, hr⟩ := h.present
  have hid := Store.id_of_find? hr
  have hclaimed := (hc.record hr).claimed
  rw [hid, h.claimed] at hclaimed
  refine ⟨⟨r, ?_⟩, h.claimed⟩
  rw [Store.find?_remove hc.wellNumbered, hr]
  exact Option.filter_some_pos (by simp [hp r hid hclaimed])

theorem serve (h : c.Holds id t) (hc : c.Faithful) {q : Request} (hq : ¬ c.Ends id q) :
    (c.serve q).Holds id t := by
  cases q with
  | create now automationId title body recipients scheduledAt =>
    rw [Chronicle.serve]
    refine enter_of h fun k store hok => ?_
    obtain ⟨row, u, rfl, rfl, hid, -⟩ := Store.create_texts_ok hok
    obtain ⟨r, hr⟩ := h.present
    have hle := Store.le_lastId_of_find? hc.wellNumbered hr
    refine ⟨⟨r, ?_⟩, ?_⟩
    · rw [Store.find?_insertLast hc.wellNumbered (by omega), if_neg (by omega)]
      exact hr
    · simp only [Times.schedule, if_neg (show id ≠ row.id by omega)]
      exact h.claimed
  | claim k now lease =>
    rw [Chronicle.serve]
    refine enter_of h fun granted store hok => ?_
    obtain ⟨u, cutoff, hu, hcutoff, hadmits⟩ := Store.claim_given hok
    cases granted with
    | false =>
      rw [Store.claim_eq hc.wellNumbered hu hcutoff hadmits] at hok
      obtain ⟨hgranted, hstore⟩ := Prod.mk.inj (Except.ok.inj hok)
      rw [hgranted] at hstore
      exact ⟨hstore ▸ h.present, h.claimed⟩
    | true =>
      have hk : k ≠ id := fun hk => hq ⟨hk, store, hok⟩
      rw [Store.claim_eq hc.wellNumbered hu hcutoff hadmits] at hok
      obtain ⟨hgranted, hstore⟩ := Prod.mk.inj (Except.ok.inj hok)
      rw [hgranted, if_pos rfl] at hstore
      rw [← hstore, if_pos rfl]
      exact h.setClaim hk _ (Row.keepsId_claimed u.text)
  | unclaim k =>
    rw [Chronicle.serve]
    refine enter_of h fun _ store hok => ?_
    rw [Store.unclaim_of_admits (Store.admits_of_checks hok)] at hok
    cases hok
    exact h.setClaim hq none Row.keepsId_freed
  | mark k recipient =>
    rw [Chronicle.serve]
    refine enter_of h fun _ store hok => ?_
    obtain ⟨-, rfl⟩ | ⟨r, delivered, -, -, rfl⟩ := Store.mark_ok hc.wellNumbered hok
    · exact h
    · exact h.modify (Row.keepsId_noted delivered recipient)
  | complete k =>
    rw [Chronicle.serve]
    refine enter_of h fun _ store hok => ?_
    rw [Store.complete_of_admits (Store.admits_of_checks hok)] at hok
    cases hok
    apply h.remove hc
    intro r hid _
    have hk : id ≠ k := Ne.symm hq
    simp [hid, hk]
  | release k errorText =>
    rw [Chronicle.serve]
    refine enter_of h fun _ store hok => ?_
    rw [Store.release_of_admits (Store.admits_of_checks hok)] at hok
    cases hok
    exact h.setClaim hq none (Row.keepsId_failed errorText)
  | cancel k =>
    rw [Chronicle.serve]
    refine enter_of h fun _ store hok => ?_
    obtain rfl := Store.cancel_ok hok
    apply h.remove hc
    intro r _ hclaimed
    simp [hclaimed]
  | cancelAll automationId =>
    rw [Chronicle.serve]
    refine enter_of h fun _ store hok => ?_
    obtain ⟨key, rfl⟩ := Store.cancelAll_ok hok
    apply h.remove hc
    intro r _ hclaimed
    simp [hclaimed]
  | record now entry =>
    rw [Chronicle.serve]
    refine enter_of h fun _ store hok => ?_
    obtain ⟨hrows, -, -⟩ := Store.record_ok hok
    refine ⟨?_, h.claimed⟩
    rw [Store.find?, hrows]
    exact h.present

theorem after (h : c.Holds id t) (hc : c.Faithful) {requests : List Request}
    (hundisturbed : c.Undisturbed id requests) : (c.after requests).Holds id t := by
  induction requests generalizing c with
  | nil => exact h
  | cons q requests ih =>
    obtain ⟨hq, hrest⟩ := hundisturbed
    exact ih (h.serve hc hq) (serve_faithful hc q) hrest

/-- A held message is claimed exactly when the lease is over by which it is asked for. -/
theorem claim (h : c.Holds id t) (hc : c.Faithful) {now : Moment} {t' : Instant}
    (ht' : now.utc? = some t') {lease : Lease} (hlease : lease.Fits t') :
    ∃ granted store, Store.claim id now lease c.store = .ok (granted, store) ∧
      (granted = true ↔ lease.IsOver t t') := by
  obtain ⟨r, hr⟩ := h.present
  have hrecords := hc.record hr
  have hid := Store.id_of_find? hr
  have hadmits : c.store.Admits id := ⟨hc.isOpen, hid ▸ hrecords.isWord⟩
  refine ⟨_, _, Store.claim_eq hc.wellNumbered ht' (staleCutoff_eq ht' hlease) hadmits, ?_⟩
  rw [hr, Option.any_some, hrecords.isClaimable_eq, hid, h.claimed, Option.all_some]
  exact Lease.isStale_iff hlease

end Holds

/-! ## Listing and claiming -/

/-- What is listed can be claimed at the same time by the same lease. -/
theorem Faithful.claim_listed (h : c.Faithful) {now : Moment} {t' : Instant}
    (ht' : now.utc? = some t') {lease : Lease} {retryLimit limit : Int} {due : List Pending}
    (hdue : c.store.listDue now retryLimit limit lease = .ok due) {p : Pending} (hp : p ∈ due) :
    ∃ store, Store.claim p.id now lease c.store = .ok (true, store) := by
  simp only [Store.listDue, bind_eq_ok] at hdue
  obtain ⟨_, -, cutoff, hcutoff, _, -, _, -, _, -, hdue⟩ := hdue
  obtain ⟨r, hr, hpending⟩ := (Store.mapM_pending_ok hdue).2 p hp
  obtain ⟨hmem, hisDue⟩ := Store.mem_dueRows hr
  simp only [Store.isDue, Bool.and_eq_true] at hisDue
  have hid := (Row.pending_ok hpending).1
  have hfind : c.store.find? p.id = some r := hid ▸ Store.find?_of_mem h.wellNumbered hmem
  have hadmits : c.store.Admits p.id := ⟨h.isOpen, hid ▸ (h.records r hmem).isWord⟩
  have hclaim := Store.claim_eq h.wellNumbered ht' hcutoff hadmits
  rw [hfind, Option.any_some, hisDue.1.1] at hclaim
  exact ⟨_, hclaim⟩

/-- In a history a message was claimed at an instant, and that claim was not ended since. -/
def HeldSince (requests : List Request) (id : Int) (t : Instant) : Prop :=
  ∃ before now lease store since,
    requests = before ++ .claim id now lease :: since ∧ now.utc? = some t ∧
      Store.claim id now lease (blank.after before).store = .ok (true, store) ∧
      ((blank.after before).serve (.claim id now lease)).Undisturbed id since

theorem HeldSince.holds {requests : List Request} (h : HeldSince requests id t) :
    (blank.after requests).Holds id t := by
  obtain ⟨before, now, lease, store, since, rfl, ht, hclaim, hsince⟩ := h
  have hbefore := after_faithful faithful_blank before
  rw [after_append]
  exact (serve_claim hbefore ht hclaim).1.after (serve_faithful hbefore _) hsince

/-- A message that is held can be claimed when the lease is over, and is listed only then. What is
listed can be claimed, and not twice at one time. -/
theorem lease_window (requests : List Request) {now : Moment} {t' : Instant}
    (ht' : now.utc? = some t') {lease : Lease} (hlease : lease.Fits t') :
    let c := blank.after requests
    (∀ id t, HeldSince requests id t →
      (∃ granted store, Store.claim id now lease c.store = .ok (granted, store) ∧
        (granted = true ↔ lease.IsOver t t')) ∧
      ∀ retryLimit limit due, c.store.listDue now retryLimit limit lease = .ok due →
        id ∈ due.map (·.id) → lease.IsOver t t') ∧
    ∀ retryLimit limit due, c.store.listDue now retryLimit limit lease = .ok due →
      ∀ p ∈ due, ∃ store, Store.claim p.id now lease c.store = .ok (true, store) ∧
        ∀ other : Lease, other.Fits t' →
          ∃ store', Store.claim p.id now other store = .ok (false, store') := by
  intro c
  have hc : c.Faithful := after_faithful faithful_blank requests
  constructor
  · intro id t hheld
    obtain ⟨granted, store, hclaim, hover⟩ := hheld.holds.claim hc ht' hlease
    refine ⟨⟨granted, store, hclaim, hover⟩, ?_⟩
    intro retryLimit limit due hdue hid
    obtain ⟨p, hp, rfl⟩ := List.mem_map.mp hid
    obtain ⟨store', hclaim'⟩ := hc.claim_listed ht' hdue hp
    rw [hclaim] at hclaim'
    cases hclaim'
    exact hover.mp rfl
  · intro retryLimit limit due hdue p hp
    obtain ⟨store, hclaim⟩ := hc.claim_listed ht' hdue hp
    refine ⟨store, hclaim, fun other hother => ?_⟩
    obtain ⟨hholds, rfl⟩ := serve_claim hc ht' hclaim
    obtain ⟨granted, store', hagain, hover⟩ := hholds.claim (serve_faithful hc _) ht' hother
    cases granted with
    | false => exact ⟨store', hagain⟩
    | true => exact absurd (hover.mp rfl) (other.not_isOver_self t')

theorem heldSince_twoReminders : HeldSince twoReminders 2 Crew.noon :=
  ⟨twoReminders.take 2, .ofInstant Crew.noon, .none, (blank.after twoReminders).store, [], rfl,
    by decide +kernel, eq_ok_of_toOption (by decide +kernel), trivial⟩

/-- An hour after the claim a lease of an hour is not over yet, but one that is a second shorter is. -/
theorem lease_window_twoReminders :
    (Moment.ofInstant Crew.oneOClock).utc? = some Crew.oneOClock ∧
      (Lease.whole 3600).Fits Crew.oneOClock ∧ (Lease.whole 3599).Fits Crew.oneOClock ∧
      HeldSince twoReminders 2 Crew.noon ∧
      (∃ store, Store.claim 2 (.ofInstant Crew.oneOClock) (.whole 3600)
        (blank.after twoReminders).store = .ok (false, store)) ∧
      ∃ store, Store.claim 2 (.ofInstant Crew.oneOClock) (.whole 3599)
        (blank.after twoReminders).store = .ok (true, store) := by
  have ht : (Moment.ofInstant Crew.oneOClock).utc? = some Crew.oneOClock := by decide +kernel
  have hhour : (Lease.whole 3600).Fits Crew.oneOClock := by decide +kernel
  have hshorter : (Lease.whole 3599).Fits Crew.oneOClock := by decide +kernel
  have hheld := heldSince_twoReminders
  obtain ⟨granted, store, hclaim, hover⟩ := ((lease_window twoReminders ht hhour).1 2 _ hheld).1
  obtain ⟨granted', store', hclaim', hover'⟩ :=
    ((lease_window twoReminders ht hshorter).1 2 _ hheld).1
  refine ⟨ht, hhour, hshorter, hheld, ⟨store, ?_⟩, ⟨store', ?_⟩⟩
  · cases granted with
    | false => exact hclaim
    | true =>
      obtain ⟨-, span, hspan, hlt⟩ := hover.mp rfl
      rw [← Except.ok.inj (show Except.ok 3600000000 = Except.ok span from hspan)] at hlt
      exact absurd hlt (by decide)
  · rwa [hover'.mpr ⟨rfl, 3599000000, rfl, by decide⟩] at hclaim'

end Chronicle

end Courier.Outbox
