import Courier.Proofs.Outbox.Chronicle

/-!
# The history of the store

Whoever writes down what was answered to the operations on the pending messages can tell every row
from these notes alone. A history is such a list of answers, the last one first. What a row should
hold is read off the history without the store: how often it was released since it was created, who
was marked, which claim was the last one.
-/

namespace Courier.Outbox

open Calendar (Instant Moment)

/-! ## Operations and their answers -/

/-- An operation on the pending messages, with its arguments. -/
inductive Command where
  | create (now : Instant) (draft : Draft)
  | claim (id : Int) (now : Moment) (lease : Lease)
  | unclaim (id : Int)
  | mark (id : Int) (recipient : String)
  | complete (id : Int)
  | release (id : Int) (errorText : String)
  | cancel (id : Int)
  | cancelAll (automationId : Value)

/-- What was answered to an operation. A refused one leaves no other trace. -/
inductive Answered where
  | created (id : Int) (now : Instant) (draft : Draft)
  | claimed (id : Int) (now : Moment) (granted : Bool)
  | unclaimed (id : Int)
  | marked (id : Int) (recipient : String)
  | completed (id : Int)
  | released (id : Int) (errorText : String) (attempts : Int)
  | cancelled (id : Int) (deleted : Bool)
  | cancelledAll (automationId : Value) (number : Nat)
  | refused (cause : Failure)

namespace Command

/-- Performs an operation and writes down the answer. -/
def note {α : Type} (operation : Operation α) (told : α → Answered) (s : Store) : Answered × Store :=
  match operation s with
  | .ok (a, s') => (told a, s')
  | .error cause => (.refused cause, s)

def serve (s : Store) : Command → Answered × Store
  | create now draft => note (Store.create now draft) (.created · now draft) s
  | claim id now lease => note (Store.claim id now lease) (.claimed id now) s
  | unclaim id => note (Store.unclaim id) (fun _ => .unclaimed id) s
  | mark id recipient => note (Store.mark id (.text recipient)) (fun _ => .marked id recipient) s
  | complete id => note (Store.complete id) (fun _ => .completed id) s
  | release id errorText => note (Store.release id errorText) (.released id errorText) s
  | cancel id => note (Store.cancel id) (.cancelled id) s
  | cancelAll automationId => note (Store.cancelAll automationId) (.cancelledAll automationId) s

theorem note_cases {α : Type} {operation : Operation α} {told : α → Answered} {s s' : Store}
    {a : Answered} (h : note operation told s = (a, s')) :
    (∃ cause, a = .refused cause ∧ s' = s) ∨ ∃ b, operation s = .ok (b, s') ∧ a = told b := by
  unfold note at h
  split at h
  · rename_i b store hok
    cases h
    exact Or.inr ⟨b, hok, rfl⟩
  · rename_i cause _
    cases h
    exact Or.inl ⟨cause, rfl, rfl⟩

/-- A refused operation changes nothing. -/
theorem serve_refused {s s' : Store} {command : Command} {cause : Failure}
    (h : command.serve s = (.refused cause, s')) : s' = s := by
  cases command <;> obtain ⟨_, -, hs'⟩ | ⟨b, -, hb⟩ := note_cases h
  all_goals first | exact hs' | cases hb

end Command

/-! ## What answers tell of a message -/

namespace Answered

/-- The message that an answer is about, if it is about a single one. -/
def id? : Answered → Option Int
  | created id _ _ | claimed id _ _ | unclaimed id | marked id _ | completed id | released id _ _
  | cancelled id _ => some id
  | cancelledAll _ _ | refused _ => none

def createdId? : Answered → Option Int
  | created id _ _ => some id
  | _ => none

def origin? (id : Int) : Answered → Option (Instant × Draft)
  | created k now draft => if k = id then some (now, draft) else none
  | _ => none

def isRelease (id : Int) : Answered → Bool
  | released k _ _ => k = id
  | _ => false

def errorText? (id : Int) : Answered → Option String
  | released k errorText _ => if k = id then some errorText else none
  | _ => none

def recipient? (id : Int) : Answered → Option String
  | marked k recipient => if k = id then some recipient else none
  | _ => none

/-- What becomes of the claim: it is made at a time, or it is given up. -/
def claim? (id : Int) : Answered → Option (Option String)
  | claimed k now true => if k = id then some (now.utc?.map Instant.text) else none
  | unclaimed k | released k _ _ => if k = id then some none else none
  | _ => none

/-- The answer says nothing of the columns of a message. -/
structure Quiet (id : Int) (a : Answered) : Prop where
  created : a.createdId? ≠ some id
  released : a.isRelease id = false
  marked : a.recipient? id = none
  claimed : a.claim? id = none
  failed : a.errorText? id = none

theorem createdId?_ne {a : Answered} (h : a.createdId? = none) (id : Int) :
    a.createdId? ≠ some id := by
  rw [h]
  exact nofun

theorem quiet_of_id {id : Int} {a : Answered} (h : a.id? ≠ some id) : a.Quiet id := by
  cases a with
  | claimed k now granted =>
    have hk : k ≠ id := fun hk => h (congrArg some hk)
    cases granted <;> constructor <;>
      simp [createdId?, isRelease, recipient?, claim?, errorText?, hk]
  | created k now draft | unclaimed k | marked k _ | completed k | released k _ _ | cancelled k _ =>
    have hk : k ≠ id := fun hk => h (congrArg some hk)
    constructor <;> simp [createdId?, isRelease, recipient?, claim?, errorText?, hk]
  | cancelledAll | refused => exact ⟨nofun, rfl, rfl, rfl, rfl⟩

end Answered

/-- Whether a message of a draft belongs to an automation, as the column of automations has it. -/
def Draft.belongsTo (automationId : Value) (draft : Draft) : Bool :=
  match Cell.ofParameter 1 draft.automationId, Cell.ofParameter 1 automationId with
  | .ok cell, .ok key => cell.toInteger.agrees key.toInteger
  | _, _ => false

/-! ## Histories -/

/-- The answers that were given, the last one first. -/
abbrev History := List Answered

namespace History

/-- What happened since a message was created. -/
def since (id : Int) (log : History) : History :=
  log.takeWhile fun a => a.createdId? != some id

/-- When a message was created, and of which draft. -/
def origin? (id : Int) (log : History) : Option (Instant × Draft) :=
  log.findSome? fun a => a.origin? id

/-- How often a message was released. -/
def releases (id : Int) (log : History) : Nat :=
  (log.since id).countP fun a => a.isRelease id

/-- The recipients that were marked, in the order in which each was marked first. -/
def recipients (id : Int) (log : History) : List String :=
  ((log.since id).reverse.filterMap fun a => a.recipient? id).eraseDups

/-- The time of the last claim, unless it was given up since. -/
def claimedAt (id : Int) (log : History) : Option String :=
  ((log.since id).findSome? fun a => a.claim? id).join

/-- What is kept of the text of the last failure. -/
def lastError (id : Int) (log : History) : Option String :=
  ((log.since id).findSome? fun a => a.errorText? id).map Store.errorStart

/-- Whether a message is deleted, given what happened before. A cancellation deletes it only if it
is not claimed. -/
def deletes (id : Int) (log : History) : Answered → Bool
  | .completed k => id == k
  | .cancelled k _ => id == k && (log.claimedAt id).isNone
  | .cancelledAll automationId _ =>
    (log.origin? id).any (fun origin => origin.2.belongsTo automationId) && (log.claimedAt id).isNone
  | _ => false

/-- Whether a message was created and not deleted since. -/
def isPresent (id : Int) : History → Bool
  | [] => false
  | a :: log => a.createdId? = some id || (isPresent id log && !deletes id log a)

end History

/-- The columns that a row has of the draft that it was made of. -/
structure Row.Shows (now : Instant) (draft : Draft) (r : Row) : Prop where
  createdAt : r.createdAt = now.text
  automationId : ∃ cell, Cell.ofParameter 2 draft.automationId = .ok cell ∧
    r.automationId = cell.toInteger
  title : ∃ cell, Cell.ofParameter 3 draft.title = .ok cell ∧ cell.toText? = some r.title
  body : ∃ cell, Cell.ofParameter 4 draft.body = .ok cell ∧ cell.toText? = some r.body
  recipients : ∃ items, draft.recipients.toItems = .ok items ∧
    r.recipientsJson = Json.write (.list items)
  scheduledAt : ∃ t, draft.scheduledAt.utc? = some t ∧ r.scheduledAt = t.text

theorem Row.Shows.other_columns {now : Instant} {draft : Draft} {r : Row} (h : r.Shows now draft)
    {claimedAt lastError : Option String} {attempts : Int} {deliveredJson : String} :
    { r with claimedAt, attempts, lastError, deliveredJson : Row }.Shows now draft :=
  ⟨h.createdAt, h.automationId, h.title, h.body, h.recipients, h.scheduledAt⟩

/-- A row holds what the history says of it. -/
structure History.Tells (log : History) (id : Int) (r : Row) : Prop where
  origin : ∃ now draft, log.origin? id = some (now, draft) ∧ r.Shows now draft
  attempts : r.attempts = log.releases id
  delivered : r.Notes (log.recipients id)
  claimedAt : r.claimedAt = log.claimedAt id
  lastError : r.lastError = log.lastError id

/-- What is stored at a number is what the history says of it. -/
structure History.Agrees (log : History) (id : Int) (o : Option Row) : Prop where
  present : o.isSome = log.isPresent id
  tells : ∀ r, o = some r → log.Tells id r

/-! ## One more answer -/

namespace History
variable {log : History} {id : Int} {a : Answered}

theorem eraseDups_concat (items : List String) (item : String) :
    (items ++ [item]).eraseDups = Row.withNoted items.eraseDups item := by
  rw [List.eraseDups_append, Row.withNoted]
  by_cases hitem : item ∈ items
  · rw [if_pos (List.mem_eraseDups.mpr hitem)]
    simp [List.removeAll, hitem]
  · rw [if_neg fun h => hitem (List.mem_eraseDups.mp h)]
    simp [List.removeAll, hitem, List.eraseDups_cons]

section created
variable (ha : a.createdId? = some id)
include ha

theorem since_created : since id (a :: log) = [] := by
  simp [since, ha]

theorem isPresent_created : isPresent id (a :: log) = true := by
  simp [isPresent, ha]

end created

section other
variable (ha : a.createdId? ≠ some id)
include ha

theorem since_cons : since id (a :: log) = a :: log.since id := by
  simp [since, ha]

theorem origin?_cons : origin? id (a :: log) = log.origin? id := by
  have hnone : a.origin? id = none := by
    cases a with
    | created k now draft =>
      have hk : k ≠ id := fun hk => ha (congrArg some hk)
      simp [Answered.origin?, hk]
    | _ => rfl
  simp [origin?, hnone]

theorem releases_cons :
    releases id (a :: log) = log.releases id + if a.isRelease id then 1 else 0 := by
  rw [releases, since_cons ha, List.countP_cons]
  rfl

theorem recipients_cons :
    recipients id (a :: log) =
      ((a.recipient? id).map (Row.withNoted (log.recipients id))).getD (log.recipients id) := by
  rw [recipients, since_cons ha, List.reverse_cons, List.filterMap_append]
  cases hr : a.recipient? id with
  | none => simp [hr, recipients]
  | some recipient =>
    rw [List.filterMap_cons_some hr, List.filterMap_nil, eraseDups_concat]
    rfl

theorem claimedAt_cons :
    claimedAt id (a :: log) = (a.claim? id).getD (log.claimedAt id) := by
  rw [claimedAt, since_cons ha, List.findSome?_cons]
  cases a.claim? id <;> rfl

theorem lastError_cons :
    lastError id (a :: log) =
      ((a.errorText? id).map fun text => some (Store.errorStart text)).getD (log.lastError id) := by
  rw [lastError, since_cons ha, List.findSome?_cons]
  cases a.errorText? id <;> rfl

theorem isPresent_cons : isPresent id (a :: log) = (log.isPresent id && !deletes id log a) := by
  simp [isPresent, ha]

end other

/-- A row that was there holds what the history says, if it changed as the answer says. -/
theorem Tells.cons {r r' : Row} (h : log.Tells id r) (ha : a.createdId? ≠ some id)
    (hshows : ∀ now draft, r.Shows now draft → r'.Shows now draft)
    (hattempts : r'.attempts = r.attempts + if a.isRelease id then 1 else 0)
    (hdelivered : ∀ delivered, r.Notes delivered →
      r'.Notes (((a.recipient? id).map (Row.withNoted delivered)).getD delivered))
    (hclaimedAt : r'.claimedAt = (a.claim? id).getD r.claimedAt)
    (hlastError : r'.lastError =
      ((a.errorText? id).map fun text => some (Store.errorStart text)).getD r.lastError) :
    Tells (a :: log) id r' := by
  obtain ⟨now, draft, horigin, hdraft⟩ := h.origin
  constructor
  · exact ⟨now, draft, (origin?_cons ha).trans horigin, hshows now draft hdraft⟩
  · rw [releases_cons ha, hattempts, h.attempts]
    split <;> simp
  · rw [recipients_cons ha]
    exact hdelivered _ h.delivered
  · rw [claimedAt_cons ha, hclaimedAt, h.claimedAt]
  · rw [lastError_cons ha, hlastError, h.lastError]

theorem Tells.of_quiet {r : Row} (h : log.Tells id r) (ha : a.Quiet id) : Tells (a :: log) id r := by
  apply h.cons ha.created
  · exact fun _ _ hdraft => hdraft
  · simp [ha.released]
  · simp [ha.marked]
  · simp [ha.claimed]
  · simp [ha.failed]

theorem Agrees.of_quiet {o : Option Row} (h : log.Agrees id o) (ha : a.Quiet id)
    (hdeletes : log.deletes id a = false) : Agrees (a :: log) id o := by
  constructor
  · rw [isPresent_cons ha.created, hdeletes, h.present]
    simp
  · intro r hr
    exact (h.tells r hr).of_quiet ha

/-- What is stored follows the history, and so do the numbers that were given. -/
structure Follows (s : Store) (log : History) : Prop where
  wellNumbered : s.WellNumbered
  bounded : ∀ k ∈ log.filterMap Answered.createdId?, k ≤ s.lastId
  increasing : (log.filterMap Answered.createdId?).Pairwise (· > ·)
  agrees : ∀ id, log.Agrees id (s.find? id)

namespace Follows
variable {s : Store}

theorem of_no_rows (h : s.rows = []) : Follows s [] := by
  constructor
  · exact ⟨by simp [h], by simp [h]⟩
  · intro k hk
    cases hk
  · exact List.Pairwise.nil
  · intro id
    have hnone : s.find? id = none := by simp [Store.find?, h]
    rw [hnone]
    refine ⟨rfl, ?_⟩
    intro r hr
    cases hr

/-- An answer other than that to a creation. -/
theorem of_not_created (h : Follows s log) (ha : a.createdId? = none) {s' : Store}
    (hs' : s'.WellNumbered) (hlast : s'.lastId = s.lastId)
    (hagrees : ∀ id, Agrees (a :: log) id (s'.find? id)) : Follows s' (a :: log) := by
  have hcreated : (a :: log).filterMap Answered.createdId? = log.filterMap Answered.createdId? :=
    List.filterMap_cons_none ha
  constructor
  · exact hs'
  · intro k hk
    rw [hcreated] at hk
    exact hlast ▸ h.bounded k hk
  · rw [hcreated]
    exact h.increasing
  · exact hagrees

theorem unchanged (h : Follows s log) (ha : a.createdId? = none) (hquiet : ∀ id, a.Quiet id)
    (hdeletes : ∀ id, log.deletes id a = false) : Follows s (a :: log) := by
  apply h.of_not_created ha h.wellNumbered rfl
  intro id
  exact (h.agrees id).of_quiet (hquiet id) (hdeletes id)

theorem modify (h : Follows s log) {k : Int} {change : Row → Row} (hkeeps : Store.KeepsId change)
    (ha : a.createdId? = none) (hid : a.id? = some k) (hdeletes : ∀ id, log.deletes id a = false)
    (hchange : ∀ r, s.find? k = some r → log.Tells k r → Tells (a :: log) k (change r)) :
    Follows (s.modify k change) (a :: log) := by
  apply h.of_not_created ha (Store.wellNumbered_modify h.wellNumbered hkeeps k) rfl
  intro id
  have hagrees := h.agrees id
  rw [Store.find?_modify hkeeps]
  split
  · rename_i heq
    subst heq
    constructor
    · rw [isPresent_cons (Answered.createdId?_ne ha id), hdeletes, Option.isSome_map, hagrees.present]
      simp
    · intro r' hr'
      obtain ⟨r, hr, rfl⟩ := Option.map_eq_some_iff.mp hr'
      exact hchange r hr (hagrees.tells r hr)
  · rename_i hne
    apply hagrees.of_quiet (Answered.quiet_of_id ?_) (hdeletes id)
    rw [hid]
    exact fun he => hne (Option.some.inj he).symm

theorem remove (h : Follows s log) {p : Row → Bool} (ha : a.createdId? = none)
    (hquiet : ∀ id, a.Quiet id)
    (hdeletes : ∀ id r, s.find? id = some r → log.Tells id r → p r = log.deletes id a) :
    Follows (s.remove p) (a :: log) := by
  apply h.of_not_created ha (Store.wellNumbered_remove h.wellNumbered p) rfl
  intro id
  have hagrees := h.agrees id
  rw [Store.find?_remove h.wellNumbered]
  constructor
  · rw [isPresent_cons (Answered.createdId?_ne ha id), ← hagrees.present]
    cases hr : s.find? id with
    | none => rfl
    | some r =>
      rw [← hdeletes id r hr (hagrees.tells r hr)]
      cases hp : p r <;> simp [hp]
  · intro r hr
    obtain ⟨hr, -⟩ := Option.filter_eq_some_iff.mp hr
    exact (hagrees.tells r hr).of_quiet (hquiet id)

theorem insert (h : Follows s log) {row : Row} {now : Instant} {draft : Draft}
    (hid : s.lastId < row.id) (hshows : row.Shows now draft) (hattempts : row.attempts = 0)
    (hdelivered : row.Notes []) (hclaimedAt : row.claimedAt = none)
    (hlastError : row.lastError = none) :
    Follows (s.insertLast row) (.created row.id now draft :: log) := by
  constructor
  · exact Store.wellNumbered_insertLast h.wellNumbered hid
  · intro k hk
    rcases List.mem_cons.mp hk with rfl | hk
    · exact Int.le_refl _
    · exact Int.le_trans (h.bounded k hk) (Int.le_of_lt hid)
  · apply List.pairwise_cons.mpr
    refine ⟨fun k hk => ?_, h.increasing⟩
    exact Int.lt_of_le_of_lt (h.bounded k hk) hid
  · intro id
    rw [Store.find?_insertLast h.wellNumbered hid]
    split
    · rename_i heq
      subst heq
      constructor
      · rw [isPresent_created rfl]
        rfl
      · intro r hr
        cases hr
        have hsince : since row.id (.created row.id now draft :: log) = [] := since_created rfl
        refine ⟨⟨now, draft, ?_, hshows⟩, ?_, ?_, ?_, ?_⟩
        · simp [origin?, Answered.origin?]
        · simp [releases, hsince, hattempts]
        · simpa [recipients, hsince] using hdelivered
        · simp [claimedAt, hsince, hclaimedAt]
        · simp [lastError, hsince, hlastError]
    · rename_i hne
      apply (h.agrees id).of_quiet (Answered.quiet_of_id ?_) rfl
      exact fun he => hne (Option.some.inj he).symm

/-- A number is given once, so what it was given to never changes. -/
theorem origin?_kept (h : Follows s (a :: log)) {origin : Instant × Draft}
    (horigin : log.origin? id = some origin) : origin? id (a :: log) = some origin := by
  rw [origin?_cons, horigin]
  intro ha
  obtain ⟨b, hb, hcreated⟩ := List.exists_of_findSome?_eq_some horigin
  have hmem : id ∈ log.filterMap Answered.createdId? := by
    apply List.mem_filterMap.mpr ⟨b, hb, ?_⟩
    cases b with
    | created k now draft =>
      simp only [Answered.origin?, Option.ite_none_right_eq_some] at hcreated
      exact congrArg some hcreated.1
    | _ => cases hcreated
  have hincreasing := h.increasing
  rw [List.filterMap_cons_some ha] at hincreasing
  exact absurd (List.rel_of_pairwise_cons hincreasing hmem) (Int.lt_irrefl id)

end Follows

end History

end Courier.Outbox
