import Courier.Proofs.Outbox.History
import Courier.Proofs.Outbox.Selection
import Mathlib.Data.List.Induction

/-!
# Recipients as they are read

The recipients of a message and those that were marked are kept as texts, and the text of the marked
ones is read and written anew for each mark. Nothing is lost on the way: whatever happens to the store,
a message shows the recipients that it was created with and the marked ones, each once, in the order of
their first marks.
-/

namespace Courier.Outbox

open Calendar (Instant Moment)

namespace Request

/-- The recipient that a request marks in a message. -/
def marked? (id : Int) : Request → Option String
  | .mark k recipient => if k = id then some recipient else none
  | _ => none

/-- A request that deletes a message, or may do so. -/
def MayDelete (id : Int) : Request → Prop
  | .complete k | .cancel k => k = id
  | .cancelAll _ => True
  | _ => False

end Request

/-! ## One request -/

/-- The lists of a row after a request, from those before it. -/
structure Row.Keeps (id : Int) (q : Request) (r r' : Row) : Prop where
  recipients : r'.recipientsJson = r.recipientsJson
  delivered : ∀ delivered, r.Notes delivered →
    r'.Notes ((q.marked? id).toList.foldl Row.withNoted delivered)

/-- What a request leaves of the row of a message. -/
inductive Request.Leaves (id : Int) (q : Request) : Option Row → Option Row → Prop where
  | absent : Leaves id q none none
  | deleted {r : Row} (h : q.MayDelete id) : Leaves id q (some r) none
  | kept {r r' : Row} (h : r.Keeps id q r') : Leaves id q (some r) (some r')

namespace Request.Leaves
variable {id : Int} {q : Request} (hq : q.marked? id = none)
include hq

theorem same (o : Option Row) : q.Leaves id o o := by
  cases o with
  | none => exact .absent
  | some r =>
    refine .kept ⟨rfl, ?_⟩
    intro delivered h
    rw [hq]
    exact h

theorem change {change : Row → Row} (hrecipients : ∀ r, (change r).recipientsJson = r.recipientsJson)
    (hdelivered : ∀ r, (change r).deliveredJson = r.deliveredJson) (o : Option Row) :
    q.Leaves id o (o.map change) := by
  cases o with
  | none => exact .absent
  | some r =>
    refine .kept ⟨hrecipients r, ?_⟩
    intro delivered h
    rw [hq, Row.Notes, hdelivered]
    exact h

theorem filter {p : Row → Bool} {o : Option Row}
    (hdelete : ∀ r, o = some r → p r = false → q.MayDelete id) : q.Leaves id o (o.filter p) := by
  cases o with
  | none => exact .absent
  | some r =>
    cases hp : p r with
    | true =>
      rw [Option.filter_some_pos hp]
      exact same hq (some r)
    | false =>
      rw [Option.filter_some_neg (by simp [hp])]
      exact .deleted (hdelete r rfl hp)

end Request.Leaves

namespace Chronicle
variable {c : Chronicle} {id : Int}

/-- Marking a message that is there cannot be refused. -/
theorem Faithful.mark (h : c.Faithful) {r : Row} (hr : c.store.find? id = some r)
    (recipient : String) :
    ∃ delivered, r.Notes delivered ∧
      (c.serve (.mark id recipient)).store = c.store.modify id (Row.noted delivered recipient) := by
  have hrecords := h.record hr
  obtain ⟨p, hp⟩ := hrecords.readable
  have hadmits : c.store.Admits id := ⟨h.isOpen, Store.id_of_find? hr ▸ hrecords.isWord⟩
  have hdelivered : r.Notes p.delivered := (Row.pending_ok hp).2.2.2.2.2
  refine ⟨p.delivered, hdelivered, ?_⟩
  rw [serve, enter, Store.mark_present h.wellNumbered hadmits hr hdelivered]

theorem leaves_mark (h : c.Faithful) (recipient : String) :
    (Request.mark id recipient).Leaves id (c.store.find? id)
      ((c.serve (.mark id recipient)).store.find? id) := by
  cases hr : c.store.find? id with
  | none =>
    have hnone : (c.serve (.mark id recipient)).store.find? id = none := by
      rw [serve]
      refine enter_of (P := fun c' => c'.store.find? id = none) hr fun _ store hok => ?_
      obtain ⟨-, rfl⟩ | ⟨r, _, hr', -⟩ := Store.mark_ok h.wellNumbered hok
      · exact hr
      · cases hr.symm.trans hr'
    rw [hnone]
    exact .absent
  | some r =>
    obtain ⟨delivered, hdelivered, hstore⟩ := h.mark hr recipient
    rw [hstore, Store.find?_modify_self (Row.keepsId_noted delivered recipient), hr, Option.map_some]
    refine .kept ⟨?_, ?_⟩
    · unfold Row.noted
      split <;> rfl
    · intro delivered' hdelivered'
      cases hdelivered.symm.trans hdelivered'
      rw [Request.marked?, if_pos rfl]
      exact Row.notes_noted hdelivered recipient

theorem leaves_modify {q : Request} (hq : q.marked? id = none) {change : Row → Row}
    (hkeeps : Store.KeepsId change) (hrecipients : ∀ r, (change r).recipientsJson = r.recipientsJson)
    (hdelivered : ∀ r, (change r).deliveredJson = r.deliveredJson) (k : Int) :
    q.Leaves id (c.store.find? id) ((c.store.modify k change).find? id) := by
  rw [Store.find?_modify hkeeps]
  split
  · exact .change hq hrecipients hdelivered _
  · exact .same hq _

theorem leaves_remove (h : c.Faithful) {q : Request} (hq : q.marked? id = none) {p : Row → Bool}
    (hdelete : ∀ r, r.id = id → p r = true → q.MayDelete id) :
    q.Leaves id (c.store.find? id) ((c.store.remove p).find? id) := by
  rw [Store.find?_remove h.wellNumbered]
  apply Request.Leaves.filter hq
  intro r hr hp
  exact hdelete r (Store.id_of_find? hr) (by simpa using hp)

/-- A request was served, and a number that was given before stands for the same message or for none. -/
structure Passes (id : Int) (q : Request) (c c' : Chronicle) : Prop where
  given : id ≤ c'.store.lastId
  row : q.Leaves id (c.store.find? id) (c'.store.find? id)

theorem passes_serve (h : c.Faithful) (hid : id ≤ c.store.lastId) (q : Request) :
    Passes id q c (c.serve q) := by
  have hrefused (hq : q.marked? id = none) : Passes id q c c := ⟨hid, .same hq _⟩
  cases q with
  | create now automationId title body recipients scheduledAt =>
    rw [serve]
    refine enter_of (hrefused rfl) fun k store hok => ?_
    obtain ⟨row, t, rfl, rfl, hk, -⟩ := Store.create_texts_ok hok
    refine ⟨by simp only [Store.insertLast]; omega, ?_⟩
    rw [Store.find?_insertLast h.wellNumbered (by omega), if_neg (by omega)]
    exact .same rfl _
  | claim k now lease =>
    rw [serve]
    refine enter_of (hrefused rfl) fun granted store hok => ?_
    obtain ⟨t, cutoff, ht, hcutoff, hadmits⟩ := Store.claim_given hok
    rw [Store.claim_eq h.wellNumbered ht hcutoff hadmits] at hok
    cases hok
    split
    · exact ⟨hid, leaves_modify rfl (Row.keepsId_claimed t.text) (fun _ => rfl) (fun _ => rfl) k⟩
    · exact hrefused rfl
  | unclaim k =>
    rw [serve]
    refine enter_of (hrefused rfl) fun _ store hok => ?_
    rw [Store.unclaim_of_admits (Store.admits_of_checks hok)] at hok
    cases hok
    exact ⟨hid, leaves_modify rfl Row.keepsId_freed (fun _ => rfl) (fun _ => rfl) k⟩
  | mark k recipient =>
    by_cases hk : k = id
    · subst hk
      refine ⟨?_, leaves_mark h recipient⟩
      rw [serve]
      refine enter_of (P := fun c' => k ≤ c'.store.lastId) hid fun _ store hok => ?_
      obtain ⟨-, rfl⟩ | ⟨r, delivered, -, -, rfl⟩ := Store.mark_ok h.wellNumbered hok
      · exact hid
      · exact hid
    · have hq : (Request.mark k recipient).marked? id = none := if_neg hk
      rw [serve]
      refine enter_of (hrefused hq) fun _ store hok => ?_
      obtain ⟨-, rfl⟩ | ⟨r, delivered, -, -, rfl⟩ := Store.mark_ok h.wellNumbered hok
      · exact hrefused hq
      · refine ⟨hid, ?_⟩
        rw [Store.find?_modify (Row.keepsId_noted delivered recipient), if_neg (Ne.symm hk)]
        exact .same hq _
  | complete k =>
    rw [serve]
    refine enter_of (hrefused rfl) fun _ store hok => ?_
    rw [Store.complete_of_admits (Store.admits_of_checks hok)] at hok
    cases hok
    refine ⟨hid, leaves_remove h rfl fun r hr hp => ?_⟩
    exact (beq_iff_eq.mp hp).symm.trans hr
  | release k errorText =>
    rw [serve]
    refine enter_of (hrefused rfl) fun _ store hok => ?_
    rw [Store.release_of_admits (Store.admits_of_checks hok)] at hok
    cases hok
    exact ⟨hid, leaves_modify rfl (Row.keepsId_failed errorText) (fun _ => rfl) (fun _ => rfl) k⟩
  | cancel k =>
    rw [serve]
    refine enter_of (hrefused rfl) fun _ store hok => ?_
    obtain rfl := Store.cancel_ok hok
    refine ⟨hid, leaves_remove h rfl fun r hr hp => ?_⟩
    rw [Bool.and_eq_true, beq_iff_eq] at hp
    exact hp.1.symm.trans hr
  | cancelAll automationId =>
    rw [serve]
    refine enter_of (hrefused rfl) fun _ store hok => ?_
    obtain ⟨key, rfl⟩ := Store.cancelAll_ok hok
    exact ⟨hid, leaves_remove h rfl fun _ _ _ => trivial⟩
  | record now entry =>
    rw [serve]
    refine enter_of (hrefused rfl) fun _ store hok => ?_
    obtain ⟨hrows, hlastId, -⟩ := Store.record_ok hok
    refine ⟨hlastId ▸ hid, ?_⟩
    rw [Store.find?, Store.find?, hrows]
    exact .same rfl _

/-! ## Runs -/

/-- The row of a message, if it is there, reads as these lists. -/
structure Reads (id : Int) (recipients delivered : List String) (c : Chronicle) : Prop where
  given : id ≤ c.store.lastId
  recipients : ∀ r, c.store.find? id = some r → loadList r.recipientsJson = .ok recipients
  delivered : ∀ r, c.store.find? id = some r → r.Notes delivered

namespace Reads
variable {recipients delivered : List String}

theorem serve (h : c.Reads id recipients delivered) (hc : c.Faithful) (q : Request) :
    (c.serve q).Reads id recipients ((q.marked? id).toList.foldl Row.withNoted delivered) := by
  have hpasses := passes_serve hc h.given q
  refine ⟨hpasses.given, ?_, ?_⟩
  · intro r' hr'
    have hrow := hpasses.row
    rw [hr'] at hrow
    generalize hr : c.store.find? id = o at hrow
    cases hrow with
    | kept hkeeps => exact hkeeps.recipients ▸ h.recipients _ hr
  · intro r' hr'
    have hrow := hpasses.row
    rw [hr'] at hrow
    generalize hr : c.store.find? id = o at hrow
    cases hrow with
    | kept hkeeps => exact hkeeps.delivered _ (h.delivered _ hr)

theorem after (h : c.Reads id recipients delivered) (hc : c.Faithful) (requests : List Request) :
    (c.after requests).Reads id recipients
      ((requests.filterMap fun q => q.marked? id).foldl Row.withNoted delivered) := by
  induction requests generalizing c delivered with
  | nil => exact h
  | cons q requests ih =>
    have hrest := ih (h.serve hc q) (serve_faithful hc q)
    cases hq : q.marked? id with
    | none =>
      rw [hq] at hrest
      rw [List.filterMap_cons_none hq]
      exact hrest
    | some recipient =>
      rw [hq] at hrest
      rw [List.filterMap_cons_some hq]
      exact hrest

end Reads

/-- A message stays there until a request deletes it. -/
theorem present_after (h : c.Faithful) (hid : id ≤ c.store.lastId)
    (hpresent : (c.store.find? id).isSome = true) {requests : List Request}
    (hkept : ∀ q ∈ requests, ¬ q.MayDelete id) :
    ((c.after requests).store.find? id).isSome = true := by
  induction requests generalizing c with
  | nil => exact hpresent
  | cons q requests ih =>
    obtain ⟨hq, hrest⟩ := List.forall_mem_cons.mp hkept
    have hpasses := passes_serve h hid q
    refine ih (serve_faithful h q) hpasses.given ?_ hrest
    have hrow := hpasses.row
    generalize c.store.find? id = o at hrow hpresent
    generalize (c.serve q).store.find? id = o' at hrow
    cases hrow with
    | absent => cases hpresent
    | deleted hdelete => exact absurd hdelete hq
    | kept => rfl

end Chronicle

theorem foldl_withNoted (marked : List String) : marked.foldl Row.withNoted [] = marked.eraseDups := by
  induction marked using List.reverseRecOn with
  | nil => rfl
  | append_singleton marked recipient ih =>
    rw [List.foldl_append, ih, History.eraseDups_concat]
    rfl

theorem Pending.remaining_of_delivered {p : Pending} {marked : List String}
    (h : p.delivered = marked.eraseDups) : p.remaining = p.recipients.filter (· ∉ marked) := by
  rw [Pending.remaining, h]
  apply List.filter_congr
  intro recipient _
  simp

namespace Store

/-- A message of texts is stored if its time is in the calendar and columns hold its numbers. -/
theorem create_texts {s : Store} (hopen : s.closed = false) {scheduledAt : Moment} {t : Instant}
    (ht : scheduledAt.utc? = some t) {automationId : Option Int}
    (hautomation : ∀ n ∈ automationId, Cell.isWord n = true)
    (hroom : Cell.isWord (s.lastId + 1) = true) (now : Instant) (title body : String)
    (recipients : List String) :
    ∃ store, create now (textDraft automationId title body recipients scheduledAt) s =
      .ok (s.lastId + 1, store) := by
  have hcell : ∃ cell, Cell.ofParameter 2 (.ofOptionInt automationId) = .ok cell := by
    cases automationId with
    | none => exact ⟨_, rfl⟩
    | some n => exact ⟨.int n, if_pos (hautomation n rfl)⟩
  obtain ⟨cell, hcell⟩ := hcell
  simp only [create, textDraft, instantOf_eq ht, checkOpen, hopen, Value.toItems, draftRow, hcell,
    checkRoom, hroom, bind, Except.bind]
  exact ⟨_, rfl⟩

theorem get?_present {s : Store} {id : Int} (h : s.Admits id) {r : Row} {p : Pending}
    (hr : s.find? id = some r) (hp : r.pending = .ok p) : s.get? id = .ok (some p) := by
  rw [get?, checks_of_admits h, hr]
  dsimp only
  rw [hp]
  rfl

theorem get?_missing {s : Store} {id : Int} (h : s.Admits id) (hr : s.find? id = none) :
    s.get? id = .ok none := by
  rw [get?, checks_of_admits h, hr]
  rfl

/-- A row that is due is listed, unless the limit cuts the list. -/
theorem mem_dueRows_of_short {rows : List Row} {now cutoff : String} {retryLimit limit : Int} {r : Row}
    (hr : r ∈ rows) (hdue : isDue now cutoff retryLimit r = true)
    (hshort : limit < 0 ∨ ((dueRows now cutoff retryLimit limit rows).length : Int) < limit) :
    r ∈ dueRows now cutoff retryLimit limit rows := by
  have hsorted : r ∈ (rows.filter (isDue now cutoff retryLimit)).mergeSort scheduledBefore :=
    (List.mergeSort_perm _ _).mem_iff.mpr (List.mem_filter.mpr ⟨hr, hdue⟩)
  unfold dueRows at hshort ⊢
  generalize (rows.filter (isDue now cutoff retryLimit)).mergeSort scheduledBefore = sorted at *
  by_cases hlimit : limit < 0
  · rwa [takeLimit, if_pos hlimit]
  · rw [takeLimit_eq (Int.not_lt.mp hlimit)] at hshort ⊢
    rw [List.length_take] at hshort
    rwa [List.take_of_length_le (by omega)]

end Store

namespace Chronicle
variable {c : Chronicle} {id : Int}

/-- A message that is there can be read. -/
theorem Reads.answer {recipients delivered : List String} (h : c.Reads id recipients delivered)
    (hc : c.Faithful) (hword : Cell.isWord id = true) :
    ∃ answer, c.store.get? id = .ok answer ∧ answer.isSome = (c.store.find? id).isSome ∧
      ∀ p ∈ answer, p.recipients = recipients ∧ p.delivered = delivered := by
  have hadmits : c.store.Admits id := ⟨hc.isOpen, hword⟩
  cases hr : c.store.find? id with
  | none =>
    refine ⟨none, Store.get?_missing hadmits hr, rfl, ?_⟩
    rintro p ⟨⟩
  | some r =>
    obtain ⟨p, hp⟩ := (hc.record hr).readable
    obtain ⟨-, -, -, -, hrecipients, hdelivered⟩ := Row.pending_ok hp
    refine ⟨some p, Store.get?_present hadmits hr hp, rfl, ?_⟩
    rintro _ ⟨⟩
    constructor
    · exact Except.ok.inj (hrecipients.symm.trans (h.recipients r hr))
    · exact Except.ok.inj (hdelivered.symm.trans (h.delivered r hr))

/-- A message is listed as it is read by itself. -/
theorem Faithful.listed_as_read (h : c.Faithful) (hword : Cell.isWord id = true)
    {answer : Option Pending} (hget : c.store.get? id = .ok answer) {now : Moment} {t : Instant}
    (ht : now.utc? = some t) {lease : Lease} (hfits : lease.Fits t) {retryLimit limit : Int}
    (hretry : Cell.isWord retryLimit = true) (hlimit : Cell.isWord limit = true) :
    ∃ due, c.store.listDue now retryLimit limit lease = .ok due ∧
      (∀ p ∈ due, p.id = id → answer = some p) ∧
      ∀ r, c.store.find? id = some r → c.isEligible t lease retryLimit r = true →
        (limit < 0 ∨ (due.length : Int) < limit) → ∃ p ∈ due, answer = some p := by
  have hrows : ∀ r ∈ Store.dueRows t.text (lease.cutoffText t) retryLimit limit c.store.rows,
      r ∈ c.store.rows := fun r hr => (Store.mem_dueRows hr).1
  obtain ⟨due, hdue⟩ := mapM_pending_exists fun r hr => (h.records r (hrows r hr)).readable
  obtain ⟨hids, hmem⟩ := Store.mapM_pending_ok hdue
  have hlisted : ∀ p ∈ due, p.id = id → answer = some p := by
    rintro p hp rfl
    obtain ⟨r, hr, hpending⟩ := hmem p hp
    have hfind := Store.find?_of_mem h.wellNumbered (hrows r hr)
    rw [← (Row.pending_ok hpending).1] at hfind
    exact Except.ok.inj (hget.symm.trans (Store.get?_present ⟨h.isOpen, hword⟩ hfind hpending))
  refine ⟨due, (h.listDue_eq ht hfits hretry hlimit).trans hdue, hlisted, ?_⟩
  intro r hr heligible hshort
  have hlength : due.length = (Store.dueRows t.text (lease.cutoffText t) retryLimit limit
      c.store.rows).length := by
    simpa using congrArg List.length hids
  rw [hlength] at hshort
  rw [← (h.record hr).isDue_eq] at heligible
  have hrow := Store.mem_dueRows_of_short (Store.mem_of_find? hr) heligible hshort
  have hid : id ∈ due.map (·.id) := by
    rw [hids, ← Store.id_of_find? hr]
    exact List.mem_map_of_mem hrow
  obtain ⟨p, hp, hpid⟩ := List.mem_map.mp hid
  exact ⟨p, hp, hlisted p hp hpid⟩

/-- A created message is there with its recipients, and none of them is marked. -/
theorem Faithful.reads_created (h : c.Faithful) {now : Instant} {automationId : Option Int}
    {title body : String} {recipients : List String} {scheduledAt : Moment} {store : Store}
    (hok : Store.create now (textDraft automationId title body recipients scheduledAt) c.store =
      .ok (id, store)) :
    let created := c.serve (.create now automationId title body recipients scheduledAt)
    created.Reads id recipients [] ∧ (created.store.find? id).isSome = true := by
  intro created
  obtain ⟨t, items, row, -, hitems, hholds, hstore, rfl, hnew, -⟩ := Store.create_row hok
  cases hitems
  have hcreated : created.store = c.store.insertLast row := by
    simp only [created, serve, enter, hok, hstore]
  have hfind : created.store.find? row.id = some row := by
    rw [hcreated, Store.find?_insertLast h.wellNumbered (by omega), if_pos rfl]
  refine ⟨⟨?_, ?_, ?_⟩, by rw [hfind]; rfl⟩
  · rw [hcreated]
    exact Int.le_refl _
  · intro r hr
    cases hfind.symm.trans hr
    exact hholds.reads_recipients
  · intro r hr
    cases hfind.symm.trans hr
    exact hholds.notes

/-- A message of texts that is stored at any point of a history is read back, and listed, with the very
recipients that it was stored with, whatever their characters are, as long as it is not deleted; and with
those that were marked since, each once, in the order of their first marks. So those that remain are the
ones that were never marked. -/
theorem recipients_are_read_back (requests more : List Request) (now : Instant)
    {automationId : Option Int} (title body : String) (recipients : List String) {scheduledAt : Moment}
    {t : Instant} (ht : scheduledAt.utc? = some t)
    (hautomation : ∀ n ∈ automationId, Cell.isWord n = true)
    (hroom : Cell.isWord ((blank.after requests).store.lastId + 1) = true) :
    let before := (blank.after requests).store
    let id := before.lastId + 1
    let c := blank.after
      (requests ++ .create now automationId title body recipients scheduledAt :: more)
    let marked := more.filterMap fun q => q.marked? id
    (∃ store, Store.create now (textDraft automationId title body recipients scheduledAt) before =
        .ok (id, store)) ∧
      ∃ answer, c.store.get? id = .ok answer ∧
        ((∀ q ∈ more, ¬ q.MayDelete id) → answer.isSome = true) ∧
        (∀ p ∈ answer, p.recipients = recipients ∧ p.delivered = marked.eraseDups ∧
          p.remaining = recipients.filter (· ∉ marked)) ∧
        ∀ (now' : Moment) (t' : Instant) (lease : Lease) (retryLimit limit : Int),
          now'.utc? = some t' → lease.Fits t' → Cell.isWord retryLimit = true →
            Cell.isWord limit = true →
              ∃ due, c.store.listDue now' retryLimit limit lease = .ok due ∧
                (∀ p ∈ due, p.id = id → answer = some p) ∧
                ∀ r, c.store.find? id = some r → c.isEligible t' lease retryLimit r = true →
                  (limit < 0 ∨ (due.length : Int) < limit) → ∃ p ∈ due, answer = some p := by
  intro before id c marked
  have hbefore : (blank.after requests).Faithful := after_faithful faithful_blank requests
  obtain ⟨store, hok⟩ := Store.create_texts hbefore.isOpen ht hautomation hroom now title body recipients
  obtain ⟨hcreated, hpresent⟩ := hbefore.reads_created hok
  have hserved := serve_faithful hbefore (.create now automationId title body recipients scheduledAt)
  have hc : c.Faithful := after_faithful faithful_blank _
  have hsplit : c = ((blank.after requests).serve
      (.create now automationId title body recipients scheduledAt)).after more := after_append ..
  have hreads : c.Reads id recipients marked.eraseDups := by
    rw [← foldl_withNoted, hsplit]
    exact hcreated.after hserved more
  obtain ⟨answer, hget, hthere, hshows⟩ := hreads.answer hc hroom
  refine ⟨⟨store, hok⟩, answer, hget, ?_, ?_, ?_⟩
  · intro hmore
    rw [hthere, hsplit]
    exact present_after hserved hcreated.given hpresent hmore
  · intro p hp
    obtain ⟨hrecipients, hdelivered⟩ := hshows p hp
    refine ⟨hrecipients, hdelivered, ?_⟩
    rw [Pending.remaining_of_delivered hdelivered, hrecipients]
  · intro now' t' lease retryLimit limit ht' hfits hretry hlimit
    exact hc.listed_as_read hroom hget ht' hfits hretry hlimit

/-- Texts with quotes, signs for escapes, controls and characters of other scripts, one of them empty and
one there twice. -/
def unusual : List String :=
  ["\"ann\"", "", "C:\\ben", "\x00\n\x7f", "Zoë 😀", ""]

theorem recipients_are_read_back_unusual :
    (Moment.ofInstant Crew.noon).utc? = some Crew.noon ∧
      (∀ n ∈ some (7 : Int), Cell.isWord n = true) ∧
      Cell.isWord ((blank.after twoReminders).store.lastId + 1) = true ∧
      let c := blank.after (twoReminders ++
        .create Crew.noon (some 7) "Hello" "See you at five." unusual (.ofInstant Crew.noon) ::
          [.mark 3 "Zoë 😀", .mark 1 "ann", .claim 3 (.ofInstant Crew.noon) .none, .mark 3 "\\u00eb",
            .release 3 "down", .mark 3 "", .mark 3 "Zoë 😀"])
      ∃ p, c.store.get? 3 = .ok (some p) ∧ p.recipients = unusual ∧
        p.delivered = ["Zoë 😀", "\\u00eb", ""] ∧
        p.remaining = ["\"ann\"", "C:\\ben", "\x00\n\x7f"] := by
  have ht : (Moment.ofInstant Crew.noon).utc? = some Crew.noon := by decide +kernel
  have hautomation : ∀ n ∈ some (7 : Int), Cell.isWord n = true := by
    rintro n ⟨⟩
    rfl
  have hid : (blank.after twoReminders).store.lastId + 1 = 3 := by decide +kernel
  have hroom : Cell.isWord ((blank.after twoReminders).store.lastId + 1) = true := by
    rw [hid]
    rfl
  refine ⟨ht, hautomation, hroom, ?_⟩
  obtain ⟨-, answer, hget, hpresent, hanswer, -⟩ := recipients_are_read_back twoReminders
    [.mark 3 "Zoë 😀", .mark 1 "ann", .claim 3 (.ofInstant Crew.noon) .none, .mark 3 "\\u00eb",
      .release 3 "down", .mark 3 "", .mark 3 "Zoë 😀"] Crew.noon "Hello" "See you at five." unusual ht
    hautomation hroom
  rw [hid] at hget hpresent hanswer
  have hkept := hpresent (by simp [Request.MayDelete])
  obtain ⟨p, rfl⟩ := Option.isSome_iff_exists.mp hkept
  obtain ⟨hrecipients, hdelivered, hremaining⟩ := hanswer p rfl
  exact ⟨p, hget, hrecipients, hdelivered.trans (by decide), hremaining.trans (by decide)⟩

end Chronicle

end Courier.Outbox
