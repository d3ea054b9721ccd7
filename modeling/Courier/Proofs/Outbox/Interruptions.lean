import Courier.Proofs.Outbox.Treatment

/-!
# What interrupts a sweep

Operations on the store may fail, but none of them is ever cancelled: a cancellation comes from the
messenger. So a sweep that ends with one was cancelled while it waited for an answer.
-/

namespace Courier

/-- If it fails, then not with a cancellation. -/
def NeverCancels {α : Type} (x : Except Failure α) : Prop :=
  ∀ f, x = .error f → f.isCancellation = false

section closure
variable {α β : Type}

theorem neverCancels_ok (a : α) : NeverCancels (.ok a) := by
  intro f h
  cases h

theorem neverCancels_error {f : Failure} (hf : f.isCancellation = false) :
    NeverCancels (.error f : Except Failure α) := by
  intro f' h
  cases h
  exact hf

theorem NeverCancels.bind {x : Except Failure α} {next : α → Except Failure β}
    (hx : NeverCancels x) (hnext : ∀ a, NeverCancels (next a)) : NeverCancels (x >>= next) := by
  intro f h
  cases x with
  | error f' =>
    cases h
    exact hx _ rfl
  | ok a => exact hnext a f h

theorem NeverCancels.map {x : Except Failure α} (hx : NeverCancels x) (g : α → β) :
    NeverCancels (x.map g) := by
  intro f h
  cases x with
  | error f' =>
    cases h
    exact hx _ rfl
  | ok a => cases h

theorem neverCancels_mapM {g : α → Except Failure β} (hg : ∀ a, NeverCancels (g a))
    (as : List α) : NeverCancels (as.mapM g) := by
  induction as with
  | nil => exact neverCancels_ok _
  | cons a as ih =>
    rw [List.mapM_cons]
    exact (hg a).bind fun b => ih.bind fun bs => neverCancels_ok _

end closure

/-! ## Conversions -/

theorem neverCancels_readInteger (s : String) : NeverCancels (readInteger s) := by
  unfold readInteger
  split
  · exact neverCancels_ok _
  · exact neverCancels_error rfl
  · exact neverCancels_error rfl

theorem neverCancels_toInt (v : Value) : NeverCancels v.toInt := by
  unfold Value.toInt
  split
  · exact neverCancels_ok _
  · exact neverCancels_ok _
  · split
    · exact neverCancels_error rfl
    · exact neverCancels_error rfl
    · exact neverCancels_ok _
  · exact neverCancels_readInteger _
  · exact neverCancels_error rfl

theorem neverCancels_ofMicros (micros : Int) : NeverCancels (Span.ofMicros micros) := by
  unfold Span.ofMicros
  dsimp only
  split
  · exact neverCancels_error rfl
  · split
    · exact neverCancels_error rfl
    · exact neverCancels_ok _

namespace Outbox

theorem neverCancels_instantOf (m : Calendar.Moment) : NeverCancels (instantOf m) := by
  unfold instantOf
  split
  · exact neverCancels_ok _
  · exact neverCancels_error rfl

theorem neverCancels_span (lease : Lease) : NeverCancels lease.span := by
  cases lease with
  | none => exact neverCancels_ok _
  | whole seconds => exact neverCancels_ofMicros _
  | real seconds =>
    cases seconds with
    | nan => exact neverCancels_error rfl
    | infinite => exact neverCancels_error rfl
    | finite => exact neverCancels_ofMicros _

theorem neverCancels_staleCutoff (now : Calendar.Moment) (lease : Lease) :
    NeverCancels (staleCutoff now lease) := by
  unfold staleCutoff
  split
  · exact neverCancels_ok _
  · refine (neverCancels_instantOf now).bind fun t => (neverCancels_span lease).bind fun span => ?_
    refine NeverCancels.bind ?_ fun cutoff => neverCancels_ok _
    unfold earlier
    split
    · exact neverCancels_ok _
    · exact neverCancels_error rfl

namespace Cell

theorem neverCancels_ofParameter (index : Nat) (v : Value) : NeverCancels (ofParameter index v) := by
  unfold ofParameter
  split
  case h_3 =>
    split
    · exact neverCancels_ok _
    · exact neverCancels_error rfl
  case h_8 => exact neverCancels_error rfl
  all_goals exact neverCancels_ok _

theorem neverCancels_requireText (table column : String) (c : Cell) :
    NeverCancels (c.requireText table column) := by
  unfold requireText
  split
  · exact neverCancels_ok _
  · exact neverCancels_error rfl

theorem neverCancels_toInt? (c : Cell) : NeverCancels c.toInt? := by
  cases c with
  | null => exact neverCancels_ok _
  | int n => exact neverCancels_ok _
  | real x => exact (neverCancels_toInt _).map _
  | text s => exact (neverCancels_readInteger s).map _

end Cell

theorem neverCancels_loadList (raw : String) : NeverCancels (loadList raw) := by
  unfold loadList
  split
  · exact neverCancels_ok _
  · split
    · exact neverCancels_ok _
    · exact neverCancels_ok _
    · exact neverCancels_ok _
    · exact neverCancels_error rfl

theorem neverCancels_pending (r : Row) : NeverCancels r.pending := by
  unfold Row.pending
  refine r.automationId.neverCancels_toInt?.bind fun automationId => ?_
  refine (neverCancels_loadList r.recipientsJson).bind fun recipients => ?_
  exact (neverCancels_loadList r.deliveredJson).bind fun delivered => neverCancels_ok _

theorem neverCancels_event (e : Entry) (id : Int) (createdAt : String) :
    NeverCancels (e.event id createdAt) := by
  unfold Entry.event
  refine (Cell.neverCancels_ofParameter 2 _).bind fun eventType => ?_
  refine (Cell.neverCancels_ofParameter 3 _).bind fun automationId => ?_
  refine (Cell.neverCancels_ofParameter 4 _).bind fun status => ?_
  refine (Cell.neverCancels_ofParameter 5 _).bind fun severity => ?_
  exact (Cell.neverCancels_requireText _ _ _).bind fun eventType => neverCancels_ok _

/-! ## Operations on the store -/

namespace Store

variable (s : Store) (id : Int)

theorem neverCancels_checkOpen : NeverCancels s.checkOpen := by
  unfold checkOpen
  split
  · exact neverCancels_error rfl
  · exact neverCancels_ok _

theorem neverCancels_checkWord : NeverCancels (checkWord id) := by
  unfold checkWord
  split
  · exact neverCancels_ok _
  · exact neverCancels_error rfl

theorem neverCancels_checked {α : Type} {x : Except Failure α} (hx : NeverCancels x) :
    NeverCancels (do s.checkOpen; checkWord id; x) :=
  s.neverCancels_checkOpen.bind fun _ => (neverCancels_checkWord id).bind fun _ => hx

theorem neverCancels_listDue (now : Calendar.Moment) (retryLimit limit : Int) (lease : Lease) :
    NeverCancels (s.listDue now retryLimit limit lease) := by
  unfold listDue
  refine (neverCancels_instantOf now).bind fun t => ?_
  refine (neverCancels_staleCutoff now lease).bind fun cutoff => ?_
  refine s.neverCancels_checkOpen.bind fun _ => (neverCancels_checkWord retryLimit).bind fun _ => ?_
  exact (neverCancels_checkWord limit).bind fun _ => neverCancels_mapM neverCancels_pending _

theorem neverCancels_claim (now : Calendar.Moment) (lease : Lease) :
    NeverCancels (claim id now lease s) := by
  unfold claim
  refine (neverCancels_instantOf now).bind fun t => ?_
  refine (neverCancels_staleCutoff now lease).bind fun cutoff => s.neverCancels_checked id ?_
  dsimp only
  split
  · exact neverCancels_ok _
  · exact neverCancels_ok _

theorem neverCancels_record (now : Calendar.Instant) (entry : Entry) :
    NeverCancels (record now entry s) := by
  unfold record
  refine s.neverCancels_checkOpen.bind fun _ => ?_
  exact (neverCancels_event entry _ _).bind fun event => neverCancels_ok _

end Store

/-! ## The ends of sweeps -/

namespace Sweep

variable {s : Sweep} {d : Desk}

theorem not_cancelled_perform {α : Type} {operation : Operation α}
    {next : α → Desk → Desk × Sweep} {f : Failure} (hop : NeverCancels (operation d.store))
    (hnext : ∀ a st, (next a { d with store := st }).2.activity ≠ .ended (some f))
    (h : (s.perform operation d next).2.activity = .ended (some f)) : f.isCancellation = false := by
  rcases perform_cases operation s d next with ⟨a, st, -, he⟩ | ⟨f', hf', he⟩
  · rw [he] at h
    exact absurd h (hnext a st)
  · rw [he] at h
    cases h
    exact hop f hf'

theorem not_cancelled_take {f : Failure} (h : (s.take d).2.activity = .ended (some f)) :
    f.isCancellation = false := by
  unfold take at h
  split at h
  · cases h
  · refine not_cancelled_perform (d.store.neverCancels_claim _ _ _) (fun claimed st hnext => ?_) h
    rename_i p due hdue
    cases claimed with
    | false => cases hnext
    | true =>
      cases hrest : p.remaining <;> simp [hrest, Activity.toNext] at hnext

theorem not_cancelled_list {policy : Policy} {now : Calendar.Moment} {f : Failure}
    (h : (list policy now d).activity = .ended (some f)) : f.isCancellation = false := by
  unfold list at h
  split at h
  · rename_i g hlist
    cases h
    exact d.store.neverCancels_listDue _ _ _ _ f hlist
  · cases h

/-- An operation ends a sweep with a cancellation only when it hands back a message for it. -/
theorem returning_of_cancelled {f : Failure} (hf : f.isCancellation = true)
    (hlive : s.activity ≠ .ended (some f)) (h : (s.advance d).2.activity = .ended (some f)) :
    ∃ p, s.activity = .returning p f := by
  have hnever (hfalse : f.isCancellation = false) : ∃ p, s.activity = .returning p f := by
    rw [hf] at hfalse
    cases hfalse
  cases hact : s.activity with
  | taking =>
    rw [advance, hact] at h
    exact hact ▸ hnever (not_cancelled_take h)
  | noting p recipient rest receipts =>
    rw [advance, hact] at h
    dsimp only [note] at h
    split at h
    · cases h
    · cases rest <;> cases h
  | completing p receipts =>
    rw [advance, hact] at h
    refine hact ▸ hnever (not_cancelled_perform ?_ (fun _ _ hnext => by cases hnext) h)
    exact d.store.neverCancels_checked _ (neverCancels_ok _)
  | confirming p receipts =>
    rw [advance, hact] at h
    exact hact ▸ hnever
      (not_cancelled_perform (d.store.neverCancels_record _ _) (fun _ _ hnext => by cases hnext) h)
  | releasing p cause =>
    rw [advance, hact] at h
    refine hact ▸ hnever (not_cancelled_perform ?_ (fun _ _ hnext => by cases hnext) h)
    exact d.store.neverCancels_checked _ (neverCancels_ok _)
  | reporting p attempts cause =>
    rw [advance, hact] at h
    refine hact ▸ hnever
      (not_cancelled_perform (d.store.neverCancels_record _ _) (fun _ _ hnext => ?_) h)
    dsimp only [turnTo] at hnext
    split at hnext
    · cases hnext
    · cases hnext
  | returning p cause =>
    rw [advance, hact] at h
    dsimp only [handBack] at h
    rcases perform_cases (Store.unclaim p.id) s d
      (fun () d => (d.log (interruptedRecord p), s.stopWith cause)) with ⟨_, st, -, he⟩ | ⟨f', hf', he⟩
    · rw [he] at h
      cases h
      exact ⟨p, rfl⟩
    · rw [he] at h
      cases h
      exact hact ▸ hnever (d.store.neverCancels_checked p.id (neverCancels_ok _) f hf')
  | sending | alerting | ended =>
    rw [advance, hact] at h
    exact absurd h hlive

end Sweep

/-! ## What is left -/

/-- Nobody claims the message. -/
def Store.IsFree (st : Store) (id : Int) : Prop :=
  ∀ r, st.find? id = some r → r.claimedAt = none

theorem Store.isFree_of_find? {st : Store} {id : Int} {r : Row} (hr : st.find? id = some r)
    (hfree : r.claimedAt = none) : st.IsFree id := by
  intro r' hr'
  rw [hr] at hr'
  cases hr'
  exact hfree

theorem Store.isFree_of_absent {st : Store} {id : Int} (h : st.find? id = none) : st.IsFree id := by
  intro r hr
  rw [h] at hr
  cases hr

theorem mem_or_isFree {st : Store} {before : List Pending} {p : Pending} (h : st.IsFree p.id) :
    ∀ q ∈ before ++ [p], q ∈ before ∨ st.IsFree q.id := by
  intro q hq
  rcases List.mem_append.mp hq with hq | hq
  · exact Or.inl hq
  · exact Or.inr (List.mem_singleton.mp hq ▸ h)

/-- Only what was claimed before is claimed, apart from messages that the sweep is not done with. -/
theorem Frame.claimed_before {policy : Policy} {st₀ st : Store} {before taken : List Pending}
    (h : Frame policy st₀ st before taken) (hfree : ∀ q ∈ taken, q ∈ before ∨ st.IsFree q.id)
    {id : Int} {r : Row} (hr : st.find? id = some r) (hclaimed : r.claimedAt ≠ none) :
    st₀.find? id = some r := by
  by_cases hid : ∃ q ∈ taken, q.id = id
  · obtain ⟨q, hq, rfl⟩ := hid
    rcases hfree q hq with hbefore | hnone
    · cases h.treated q hbefore with
      | passed hr₀ _ hr' =>
        rw [hr'] at hr
        cases hr
        exact hr₀
      | delivered hgone =>
        rw [hgone] at hr
        cases hr
      | failed hreleased =>
        obtain ⟨-, hr', -, -⟩ := hreleased
        rw [hr'] at hr
        cases hr
        exact absurd rfl hclaimed
    · exact absurd (hnone r hr) hclaimed
  · rw [← h.kept id fun q hq hqid => hid ⟨q, hq, hqid⟩]
    exact hr

namespace Sweep

variable {s : Sweep} {d : Desk} {st₀ : Store} {listed : List Pending}

/-- What a sweep leaves, from what it was about to do when it ended. -/
inductive End (s : Sweep) (st₀ : Store) (listed : List Pending) (st : Store) :
    Option Failure → Prop where
  | complete {before taken : List Pending} {f : Option Failure}
    (hframe : Frame s.policy st₀ st before taken)
    (hfree : ∀ q ∈ taken, q ∈ before ∨ st.IsFree q.id)
    (hf : ∀ g, f = some g → g.isCancellation = false) : End s st₀ listed st f
  | handedBack {before rest : List Pending} {p : Pending} {g : Failure} {r r' : Row}
    (hact : s.activity = .returning p g) (hlisted : listed = before ++ p :: rest)
    (hframe : Frame s.policy st₀ st before (before ++ [p])) (hr : st₀.find? p.id = some r)
    (hr' : st.find? p.id = some r') (hlike : r.Resembles r') (hfree : r'.claimedAt = none) :
    End s st₀ listed st (some g)
  | unalerted {before rest : List Pending} {p : Pending} {attempts : Int} {cause g : Failure}
    (hact : s.activity = .alerting p attempts cause) (hlisted : listed = before ++ p :: rest)
    (hframe : Frame s.policy st₀ st before (before ++ [p]))
    (hreleased : p.Released attempts cause st₀ st)
    (hrecords : st.Records (p.failure s.policy attempts cause))
    (halerts : alerts s.policy attempts = true) : End s st₀ listed st (some g)

theorem End.claimed_before {st : Store} {f : Option Failure} (h : s.End st₀ listed st f) {id : Int}
    {r : Row} (hr : st.find? id = some r) (hclaimed : r.claimedAt ≠ none) :
    st₀.find? id = some r := by
  cases h with
  | complete hframe hfree => exact hframe.claimed_before hfree hr hclaimed
  | handedBack _ _ hframe _ hr' _ hfree =>
    exact hframe.claimed_before (mem_or_isFree (Store.isFree_of_find? hr' hfree)) hr hclaimed
  | unalerted _ _ hframe hreleased =>
    obtain ⟨-, hr', -, -⟩ := hreleased
    exact hframe.claimed_before (mem_or_isFree (Store.isFree_of_find? hr' rfl)) hr hclaimed

section ends
variable {f : Option Failure} (hlive : ∀ f, s.activity ≠ .ended f)
  (hend : (s.advance d).2.activity = .ended f)
include hlive hend

theorem not_cancelled_end (hact : ∀ p g, s.activity ≠ .returning p g) (g : Failure)
    (hg : f = some g) : g.isCancellation = false := by
  cases hcancel : g.isCancellation with
  | false => rfl
  | true =>
    rw [hg] at hend
    obtain ⟨p, hp⟩ := returning_of_cancelled hcancel (hlive (some g)) hend
    exact absurd hp (hact p g)

/-- Nothing but the end of the list, or a failure of the store, ends a sweep between two messages. -/
theorem end_of_taking (hst : d.store.WellNumbered) {before : List Pending}
    (hact : s.activity = .taking) (hframe : Frame s.policy st₀ d.store before before) :
    s.End st₀ listed (s.advance d).1.store f := by
  have hnever := not_cancelled_end hlive hend (by simp [hact])
  have hstep := advance_step (s := s) hst
  generalize (s.advance d).2 = s' at *
  generalize (s.advance d).1.store = st' at *
  cases hstep with
  | finished | stuck => exact .complete hframe (fun q hq => Or.inl hq) hnever
  | still => exact absurd hend (hlive f)
  | passed => cases hend
  | @claimed p =>
    rcases hrest : p.remaining with _ | ⟨x, xs⟩
    · rw [hrest] at hend
      cases hend
    · rw [hrest] at hend
      cases hend
  | noted hact' | absent hact' | unnoted _ hact' | completed hact' | confirmed hact'
  | released _ hact' | reported hact' | returned hact' =>
    rw [hact] at hact'
    cases hact'

variable {before : List Pending} {p : Pending}
  (hframe : Frame s.policy st₀ d.store before (before ++ [p]))
include hframe

theorem end_of_held (hst : d.store.WellNumbered) (hnodup : (listed.map (·.id)).Nodup)
    (hlisted : listed = before ++ p :: s.due) (hpending : s.activity.pending? = some p)
    (hholding : s.activity.holding? = some p.id) (hkept : p.Kept st₀ d.store)
    (hadmits : d.store.Admits p.id) : s.End st₀ listed (s.advance d).1.store f := by
  have hstep := advance_step (s := s) hst
  have hrows := hstep.others_kept hst (k := p.id)
    (fun id hid => by rw [hholding] at hid; exact (Option.some.inj hid).symm)
    (fun id hid => by rw [taking_of_claims? hid] at hpending; cases hpending)
  have hframe' := hframe.mono (by simp) (id_ne_of_listed (hlisted ▸ hnodup)) hrows
    (advance_adds hst).grows
  obtain ⟨hr, hr', hlike⟩ := hkept
  generalize (s.advance d).2 = s' at *
  generalize (s.advance d).1.store = st' at *
  cases hstep with
  | still => exact absurd hend (hlive f)
  | finished hact | passed hact | claimed _ hact => simp [hact, Activity.pending?] at hpending
  | confirmed hact | reported hact => simp [hact, Activity.holding?] at hholding
  | stuck g hbusy _ _ hfail hnoting =>
    -- Whatever the sweep does with a message that it holds, the store admits it.
    cases hact : s.activity with
    | noting => exact absurd hact (hnoting _ _ _ _)
    | completing | releasing | returning =>
      rw [hact] at hholding
      exact absurd hadmits (hfail p.id (by rw [hact]; exact hholding))
    | sending | alerting | ended => simp [isBusy, hact] at hbusy
    | taking | confirming | reporting => simp [hact, Activity.holding?] at hholding
  | @noted _ _ rest => cases rest <;> cases hend
  | @absent _ _ rest => cases rest <;> cases hend
  | unnoted | completed | released => cases hend
  | @returned q _ hact =>
    cases hend
    obtain rfl : q = p := by simpa [hact, Activity.pending?] using hpending
    have hfreed := Store.find?_modify_self Row.keepsId_freed d.store q.id
    rw [hr'] at hfreed
    exact .handedBack hact hlisted hframe' hr hfreed (hlike.trans rfl) rfl

theorem end_of_confirming {receipts : List String} (hact : s.activity = .confirming p receipts)
    (hgone : d.store.find? p.id = none) : s.End st₀ listed (s.advance d).1.store f := by
  have hnever := not_cancelled_end hlive hend (by simp [hact])
  rcases advance_confirming (d := d) hact with ⟨-, hs'⟩ | ⟨g, -, he⟩
  · rw [hs'] at hend
    cases hend
  · rw [he]
    exact .complete hframe (mem_or_isFree (Store.isFree_of_absent hgone)) hnever

theorem end_of_reporting {attempts : Int} {cause : Failure}
    (hact : s.activity = .reporting p attempts cause)
    (hreleased : p.Released attempts cause st₀ d.store) :
    s.End st₀ listed (s.advance d).1.store f := by
  have hnever := not_cancelled_end hlive hend (by simp [hact])
  rcases advance_reporting (d := d) hact with ⟨-, hs'⟩ | ⟨g, -, he⟩
  · rw [hs'] at hend
    dsimp only [turnTo] at hend
    split at hend
    · cases hend
    · cases hend
  · obtain ⟨-, hr', -, -⟩ := hreleased
    rw [he]
    exact .complete hframe (mem_or_isFree (Store.isFree_of_find? hr' rfl)) hnever

end ends

theorem Course.end_of_advance (h : Course st₀ listed d.store s) (hst : d.store.WellNumbered)
    (hnodup : (listed.map (·.id)).Nodup) (hlive : ∀ f, s.activity ≠ .ended f) {f : Option Failure}
    (hend : (s.advance d).2.activity = .ended f) : s.End st₀ listed (s.advance d).1.store f := by
  cases h with
  | between hact hlisted hframe => exact end_of_taking hlive hend hst hact hframe
  | within hstage hlisted hframe =>
    generalize ha : s.activity = a at hstage
    cases hstage with
    | held hpending hholding hkept hadmits =>
      exact end_of_held hlive hend hframe hst hnodup hlisted (ha ▸ hpending) (ha ▸ hholding) hkept
        hadmits
    | confirming hgone => exact end_of_confirming hlive hend hframe ha hgone
    | reporting hreleased => exact end_of_reporting hlive hend hframe ha hreleased
    | alerting hreleased hrecords =>
      rw [Sweep.advance, ha] at hend
      exact absurd hend (hlive f)

/-- Only the cancellation of a call that tells the operator of a failure ends a sweep at once. -/
theorem alerting_of_ended (hlive : ∀ f, s.activity ≠ .ended f) {answer : Except Failure String}
    {f : Option Failure} (hend : (s.answered answer d).2.activity = .ended f) :
    ∃ p attempts cause g, s.activity = .alerting p attempts cause ∧ answer = .error g ∧
      f = some g := by
  unfold answered at hend
  split at hend
  · cases hend
  · dsimp only [turnTo] at hend
    split at hend
    · cases hend
    · cases hend
  · cases hend
  · rename_i p attempts cause g hact
    split at hend
    · cases hend
      exact ⟨p, attempts, cause, g, hact, rfl, rfl⟩
    · cases hend
  · exact absurd hend (hlive f)

theorem Course.end_of_answered (h : Course st₀ listed d.store s) {p : Pending} {attempts : Int}
    {cause : Failure} (hact : s.activity = .alerting p attempts cause) (g : Failure) :
    s.End st₀ listed d.store (some g) := by
  cases h with
  | between hact' =>
    rw [hact] at hact'
    cases hact'
  | within hstage hlisted hframe =>
    have hpending := hstage.pending
    rw [hact] at hstage hpending
    cases hpending
    cases hstage with
    | held _ hholding => cases hholding
    | alerting hreleased hrecords halerts =>
      exact .unalerted hact hlisted hframe hreleased hrecords halerts

/-! ## Handing back -/

/-- No operation leads to a message being handed back. -/
theorem Step.not_returning {s' : Sweep} {st' : Store} (h : s.Step d s' st') (p : Pending)
    (g : Failure) : s'.activity ≠ .returning p g := by
  intro hact
  cases h with
  | still hbusy => simp [isBusy, hact] at hbusy
  | @claimed q => cases hrest : q.remaining <;> simp [hrest, Activity.toNext] at hact
  | @noted _ _ rest | @absent _ _ rest => cases rest <;> cases hact
  | reported _ _ hnext => rcases hnext with rfl | rfl <;> cases hact
  | finished | passed | stuck | unnoted | completed | confirmed | released | returned => cases hact

theorem list_not_returning (policy : Policy) (now : Calendar.Moment) (p : Pending) (g : Failure) :
    (list policy now d).activity ≠ .returning p g := by
  unfold list
  split
  · exact nofun
  · exact nofun

/-- A message is handed back because a call to deliver it was cancelled. -/
theorem sending_of_returning {answer : Except Failure String} {p : Pending} {g : Failure}
    (h : (s.answered answer d).2.activity = .returning p g) :
    s.activity = .returning p g ∨
      ∃ recipient rest receipts, s.activity = .sending p recipient rest receipts ∧
        answer = .error g := by
  unfold answered at h
  split at h
  · cases h
  · rename_i q recipient rest receipts f hact
    dsimp only [turnTo] at h
    split at h
    · cases h
      exact Or.inr ⟨recipient, rest, receipts, hact, rfl⟩
    · cases h
  · cases h
  · split at h
    · cases h
    · cases h
  · exact Or.inl h

end Sweep

end Outbox

end Courier
