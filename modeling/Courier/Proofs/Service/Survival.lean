import Courier.Application
import Courier.Proofs.Crew.Arrival
import Courier.Proofs.Number.Rounding
import Courier.Proofs.Service.Basic

/-!
# Workers that survive

Whatever the messenger answers, a sweep returns and its worker goes on, as long as the messages that are
due can be listed and the clock can count the pause after the sweep. Listing them fails in two cases: the
lease goes back beyond the first year, or no column holds the retry limit. The pause fails if it is too
large for a binary number. None of these is refused when the settings are read, so which settings keep a
worker alive depends on the times at which it works.
-/

namespace Courier

open Calendar (Instant Moment)
open Number (Binary64)

theorem Settings.one_le_retryLimit {env : Environment} {s : Settings} (h : load env = .ok s) :
    1 ≤ s.retryLimit := by
  unfold load at h
  dsimp only at h
  split at h
  · cases h
  obtain ⟨retryLimit, -, h⟩ := bind_eq_ok.mp h
  split at h
  · cases h
  rename_i hlimit
  obtain ⟨operatorChat, -, h⟩ := bind_eq_ok.mp h
  obtain ⟨requestTimeout, -, h⟩ := bind_eq_ok.mp h
  obtain ⟨pollInterval, -, h⟩ := bind_eq_ok.mp h
  obtain ⟨claimLease, -, h⟩ := bind_eq_ok.mp h
  cases h
  exact Int.not_lt.mp hlimit

namespace Outbox

/-! ## Listing at a time -/

/-- The calendar reaches back by a lease that is not longer than the time since its start. -/
theorem Lease.fits_whole_iff {seconds : Int} {t : Instant} :
    (whole seconds).Fits t ↔ seconds * 1000000 ≤ t.micros := by
  by_cases hon : 0 < seconds
  · have hoff : (whole seconds).isOff = false := by simpa [isOff] using hon
    constructor
    · intro hfits
      obtain ⟨cutoff, hcutoff⟩ := Option.isSome_iff_exists.mp (hfits hoff)
      rw [cutoff?, if_neg (by simp [hoff])] at hcutoff
      cases hspan : (whole seconds).span with
      | error f => simp [hspan] at hcutoff
      | ok span =>
        rw [hspan] at hcutoff
        have hmicros := micros_of_add? hcutoff
        have hseconds : span = seconds * 1000000 := Span.ofMicros_ok hspan
        omega
    · intro hle _
      have ht := t.inRange
      have hbound : (seconds * 1000000).natAbs ≤ Calendar.endOfTime := by omega
      have hspan : (whole seconds).span = .ok (seconds * 1000000) := Span.ofMicros_of_le hbound
      rw [cutoff?, if_neg (by simp [hoff]), hspan]
      simp only [Instant.add?, Instant.ofMicros?]
      rw [dif_pos (by omega), if_neg (by omega)]
      rfl
  · have hoff : (whole seconds).isOff = true := by simpa [isOff] using hon
    refine iff_of_true (fun hfalse => ?_) (by omega)
    rw [hoff] at hfalse
    cases hfalse

theorem staleCutoff_of_not_fits {lease : Lease} {now : Moment} {t : Instant} (ht : now.utc? = some t)
    (h : ¬ lease.Fits t) : ∃ f, staleCutoff now lease = .error f := by
  obtain ⟨hoff, hnone⟩ := Classical.not_imp.mp h
  rw [Lease.cutoff?, if_neg (by simp [hoff])] at hnone
  cases hspan : lease.span with
  | error f =>
    exact ⟨f, by simp [staleCutoff, hoff, instantOf_eq ht, hspan, bind, Except.bind]⟩
  | ok span =>
    rw [hspan] at hnone
    refine ⟨.dateOutOfRange, ?_⟩
    simp [staleCutoff, hoff, instantOf_eq ht, hspan, earlier, Option.not_isSome_iff_eq_none.mp hnone,
      bind, Except.bind]

/-- Listing what is due at a time fails if the lease goes back too far or no column holds the limit. -/
theorem Store.listDue_fails {st : Store} (hopen : st.closed = false) {now : Moment} {t : Instant}
    (ht : now.utc? = some t) {policy : Policy}
    (h : ¬ (policy.lease.Fits t ∧ Cell.isWord policy.retryLimit = true)) :
    ∃ f, st.listDue now policy.retryLimit Sweep.listLimit policy.lease = .error f := by
  by_cases hfits : policy.lease.Fits t
  · have hword : Cell.isWord policy.retryLimit = false :=
      Bool.not_eq_true _ ▸ fun hword => h ⟨hfits, hword⟩
    exact ⟨_, listDue_refused hopen ht hfits (by rw [hword]; rfl)⟩
  · obtain ⟨f, hf⟩ := staleCutoff_of_not_fits ht hfits
    exact ⟨f, by simp [listDue, instantOf_eq ht, hf, bind, Except.bind]⟩

/-! ## Sweeps that come to their end -/

namespace Sweep

/-- A sweep by a policy at a desk whose clock shows a time. All messages can be listed and recorded, and
no failure ended the sweep; at most so much of it is left. -/
structure Steady (policy : Policy) (t : Instant) (load : Nat) (s : Sweep) (d : Desk) : Prop where
  wellNumbered : d.store.WellNumbered
  isOpen : d.store.closed = false
  legible : d.store.Legible
  now : d.now = t
  sound : s.Sound
  policy : s.policy = policy
  load : s.load ≤ load

section steady
variable {policy : Policy} {t : Instant} {load : Nat} {s : Sweep} {d : Desk}

theorem steady_list (hst : d.store.WellNumbered) (hopen : d.store.closed = false)
    (h : d.store.Legible) (hfits : policy.lease.Fits d.now)
    (hword : Cell.isWord policy.retryLimit = true) :
    (list policy d.moment d).Steady policy d.now (list policy d.moment d).load d := by
  refine ⟨hst, hopen, h, rfl, ?_, ?_, Nat.le_refl _⟩
  · exact sound_list hopen h (Calendar.Moment.utc?_ofInstant d.now) hfits hword
  · unfold list
    split
    · rfl
    · rfl

theorem Steady.advance (h : s.Steady policy t load d) (hfits : policy.lease.Fits t)
    (hbusy : s.isBusy = true) : (s.advance d).2.Steady policy t load (s.advance d).1 where
  wellNumbered := (advance_step h.wellNumbered).wellNumbered h.wellNumbered
  isOpen := (advance_step h.wellNumbered).closed_eq.trans h.isOpen
  legible := h.legible.step (advance_step h.wellNumbered)
  now := (advance_now s d).trans h.now
  sound := h.sound.advance h.wellNumbered h.isOpen (by rw [h.policy, h.now]; exact hfits)
  policy := (advance_step h.wellNumbered).policy_eq.trans h.policy
  load := Nat.le_trans (Nat.le_of_lt ((advance_step h.wellNumbered).load_lt hbusy)) h.load

theorem proceed_now (s : Sweep) (d : Desk) : (s.proceed d).1.now = d.now :=
  (proceed_keeps (I := fun _ d' => d'.now = d.now)
    (fun s d' _ h => (advance_now s d').trans h) rfl).1

theorem Steady.proceed (h : s.Steady policy t load d) (hfits : policy.lease.Fits t) :
    (s.proceed d).2.Steady policy t load (s.proceed d).1 ∧ (s.proceed d).2.isBusy = false :=
  proceed_keeps (I := Steady policy t load) (fun _ _ hbusy h => h.advance hfits hbusy) h

theorem Steady.answered (h : s.Steady policy t load d) (hwaits : s.request?.isSome = true)
    {answer : Except Failure String} (hanswer : ∀ f, answer = .error f → f.isCancellation = false) :
    (s.answered answer d).2.Steady policy t (load - 1) (s.answered answer d).1 := by
  have hstore := answered_store answer s d
  refine ⟨hstore ▸ h.wellNumbered, hstore ▸ h.isOpen, hstore ▸ h.legible, ?_, ?_, ?_, ?_⟩
  · exact (answered_now answer s d).trans h.now
  · exact h.sound.answered hanswer d
  · exact (answered_policy answer s d).trans h.policy
  · have hlt := load_answered_lt hwaits answer d
    have hle := h.load
    omega

/-- Such a sweep that has nothing to do returned or waits. -/
theorem Steady.rests (h : s.Steady policy t load d) (hidle : s.isBusy = false) :
    Worker.ofSweep s = Worker.rest policy ∨ Worker.ofSweep s = .sweeping s := by
  cases hact : s.activity with
  | sending | alerting => exact Or.inr (by rw [Worker.ofSweep, hact])
  | ended f =>
    cases f with
    | none => exact Or.inl (by rw [Worker.ofSweep, hact, h.policy])
    | some f => exact absurd hact (h.sound.intact f)
  | taking | noting | completing | confirming | releasing | reporting | returning =>
    simp [isBusy, hact] at hidle

/-- A sweep that waits and is sound waits for the answer to a call. -/
theorem Waiting.request?_isSome (h : s.Waiting) (hsound : s.Sound) : s.request?.isSome = true := by
  cases h with
  | sending hact => simp [request?, hact]
  | alerting hact => simpa [request?, hact] using hsound.heard _ _ _ hact

theorem Waiting.load_pos (h : s.Waiting) : 0 < s.load := by
  cases h with
  | sending hact | alerting hact =>
    simp only [Sweep.load, hact, Activity.load]
    omega

end steady

end Sweep

/-! ## Services that go on -/

namespace Occurrence

def isAnswer : Occurrence → Bool
  | answer _ => true
  | _ => false

/-- No call is cancelled but by stopping the worker, the others store messages of texts, and the clock
is set to such times only. -/
def Within (T : Instant → Prop) : Occurrence → Prop
  | .answer result => ∀ f, result = .error f → f.isCancellation = false
  | .other t => t.Typed ∧ ∀ now, t = .setClock now → T now
  | _ => True

end Occurrence

namespace Service

/-- No failure ended the worker, and its sweep returns when so many calls were answered. -/
structure Survives (policy : Policy) (T : Instant → Prop) (v : Service) : Prop where
  unbroken : ∀ f, v.worker = .ended f → f.isCancellation = true
  returns : ∀ s, v.worker = .sweeping s → ∃ n, ∀ os, (∀ o ∈ os, o.Within T ∧ o ≠ .stop) →
    n ≤ os.countP Occurrence.isAnswer → ∃ us, us <+: os ∧ (v.after policy us).worker = .asleep

/-- A service whose worker goes on at such times, unless its pause ended it. -/
structure Healthy (policy : Policy) (T : Instant → Prop) (v : Service) : Prop where
  legible : v.desk.store.Legible
  now : T v.desk.now
  unbroken : ∀ f, v.worker = .ended f → f.isCancellation = true ∨ Worker.rest policy = .ended f
  sound : ∀ s, v.worker = .sweeping s → s.Sound ∧ s.policy = policy

variable {policy : Policy} {T : Instant → Prop} {v : Service}

theorem scheduled_of_start (hw : v.worker.isRunning = false) :
    (v.occur policy .start).worker = .scheduled := by
  change (v.worker.start v.desk).2 = .scheduled
  rw [Worker.start, if_neg (by simp [hw])]

theorem wake_of_scheduled (hw : v.worker = .scheduled) :
    v.occur policy .wake = v.leave (Worker.beginSweep policy v.desk) := by
  rw [occur, hw]
  rfl

theorem healthy_before {c : Crew} (h : c.store.Legible) (hnow : T c.desk.now) :
    (before c).Healthy policy T :=
  ⟨h, hnow, fun f hf => (by cases hf), fun s hs => (by cases hs)⟩

/-- The worker leaves the desk so when its sweep returned or waits. -/
theorem healthy_leave {s : Sweep} {d : Desk} {t : Instant} {load : Nat}
    (h : s.Steady policy t load d) (hidle : s.isBusy = false) (ht : T t) (journal : Log.Journal) :
    (v.leave ({ d with journal }, .ofSweep s)).Healthy policy T ∧
      (Worker.ofSweep s = Worker.rest policy ∨
        ∃ s', Worker.ofSweep s = .sweeping s' ∧ s'.load ≤ load) := by
  have htime : T d.now := h.now.symm ▸ ht
  rcases h.rests hidle with hrests | hsweeping
  · rw [hrests]
    refine ⟨⟨h.legible, htime, fun f hf => Or.inr hf, fun s' hs' => ?_⟩, Or.inl rfl⟩
    exact absurd hs' (Worker.rest_ne_sweeping policy s')
  · rw [hsweeping]
    refine ⟨⟨h.legible, htime, fun f hf => ?_, fun s' hs' => ?_⟩, Or.inr ⟨_, rfl, h.load⟩⟩
    · cases hf
    · cases hs'
      exact ⟨h.sound, h.policy⟩

section healthy
variable (hfits : ∀ t, T t → policy.lease.Fits t) (hword : Cell.isWord policy.retryLimit = true)
include hfits hword

/-- A worker that begins a sweep goes on with it, or its sweep returns. -/
theorem Healthy.begin (h : v.Healthy policy T) (horderly : v.Orderly) :
    (v.leave (Worker.beginSweep policy v.desk)).Healthy policy T ∧
      ((Worker.beginSweep policy v.desk).2 = Worker.rest policy ∨
        ∃ s, (Worker.beginSweep policy v.desk).2 = .sweeping s) := by
  have hlist := Sweep.steady_list horderly.wellNumbered horderly.isOpen h.legible (hfits _ h.now) hword
  obtain ⟨hsteady, hidle⟩ := hlist.proceed (hfits _ h.now)
  obtain ⟨hhealthy, hrests⟩ := healthy_leave (v := v) hsteady hidle h.now _
  exact ⟨hhealthy, hrests.imp_right fun ⟨s, hs, _⟩ => ⟨s, hs⟩⟩

omit hword in
/-- So does one whose call was answered, and its sweep comes nearer to its end. -/
theorem Healthy.resume (h : v.Healthy policy T) (horderly : v.Orderly) {s : Sweep}
    (hw : v.worker = .sweeping s) {answer : Except Failure String}
    (hanswer : ∀ f, answer = .error f → f.isCancellation = false) (journal : Log.Journal) :
    (v.leave ({ (s.resume answer v.desk).1 with journal },
        .ofSweep (s.resume answer v.desk).2)).Healthy policy T ∧
      (Worker.ofSweep (s.resume answer v.desk).2 = Worker.rest policy ∨
        ∃ s', Worker.ofSweep (s.resume answer v.desk).2 = .sweeping s' ∧ s'.load + 1 ≤ s.load) := by
  obtain ⟨hsound, hpolicy⟩ := h.sound s hw
  have hwaiting := horderly.waiting s hw
  have hpos := hwaiting.load_pos
  have hsteady : s.Steady policy v.desk.now s.load v.desk :=
    ⟨horderly.wellNumbered, horderly.isOpen, h.legible, rfl, hsound, hpolicy, Nat.le_refl _⟩
  obtain ⟨hsteady, hidle⟩ :=
    (hsteady.answered (hwaiting.request?_isSome hsound) hanswer).proceed (hfits _ h.now)
  -- The answer lowered the bound, and what the sweep did after it did not raise it.
  obtain ⟨hhealthy, hrests⟩ := healthy_leave (v := v) hsteady hidle h.now journal
  refine ⟨hhealthy, hrests.imp_right fun ⟨s', hs', hle⟩ => ⟨s', hs', ?_⟩⟩
  omega

omit hfits hword in
/-- A worker that is stopped in the middle of a sweep leaves the store in order. -/
theorem Healthy.interrupt (h : v.Healthy policy T) (horderly : v.Orderly) {s : Sweep}
    (hw : v.worker = .sweeping s) (journal : Log.Journal) :
    (v.leave ({ (s.resume (.error .cancellation) v.desk).1 with journal },
      .ofSweep (s.resume (.error .cancellation) v.desk).2)).Healthy policy T := by
  obtain ⟨hstore, hended⟩ := (horderly.waiting s hw).interrupted horderly.isOpen
  have hnow : (s.resume (.error .cancellation) v.desk).1.now = v.desk.now :=
    (Sweep.proceed_now _ _).trans (Sweep.answered_now _ s v.desk)
  have hlegible : (v.desk.store.withFreed s.activity.holding?).Legible := by
    cases s.activity.holding? with
    | none => exact h.legible
    | some id => exact h.legible.modify Row.keepsId_freed (fun _ hr => hr.freed) id
  rw [Worker.ofSweep, hended]
  generalize s.resume (.error .cancellation) v.desk = result at hstore hnow ⊢
  refine ⟨?_, ?_, fun f hf => ?_, fun s' hs' => ?_⟩
  · exact hstore ▸ hlegible
  · exact hnow ▸ h.now
  · cases hf
    exact Or.inl rfl
  · cases hs'

/-- Whatever occurs, the worker goes on or was stopped, unless its pause ends it. -/
theorem Healthy.occur (h : v.Healthy policy T) (horderly : v.Orderly) {o : Occurrence}
    (ho : o.Within T) : (v.occur policy o).Healthy policy T := by
  have hstep : Step policy v o (v.occur policy o) := occur_step o
  generalize v.occur policy o = v' at hstep
  cases hstep with
  | still => exact ⟨h.legible, h.now, h.unbroken, h.sound⟩
  | scheduled =>
    refine ⟨h.legible, h.now, fun f hf => ?_, fun s' hs' => ?_⟩
    · cases hf
    · cases hs'
  | halted =>
    refine ⟨h.legible, h.now, fun f hf => ?_, fun s' hs' => ?_⟩
    · cases hf
      exact Or.inl rfl
    · cases hs'
  | begun => exact (h.begin hfits hword horderly).1
  | @resumed _ s answer journal hw hcall =>
    rcases hcall with rfl | ⟨rfl, rfl⟩
    · exact (h.resume hfits horderly hw ho journal).1
    · exact h.interrupt horderly hw journal
  | other t =>
    refine ⟨Crew.legible_turn horderly.wellNumbered h.legible ho.1, ?_, h.unbroken, h.sound⟩
    by_cases hclock : ∃ now, t = .setClock now
    · obtain ⟨now, rfl⟩ := hclock
      exact ho.2 now rfl
    · rw [desk, Crew.now_turn fun now ht => hclock ⟨now, ht⟩]
      exact h.now

theorem Healthy.after (h : v.Healthy policy T) (horderly : v.Orderly) {os : List Occurrence}
    (hos : ∀ o ∈ os, o.Within T) :
    (v.after policy os).Healthy policy T ∧ (v.after policy os).Orderly :=
  after_keeps (I := fun v => v.Healthy policy T ∧ v.Orderly)
    (fun _ o h ho => ⟨h.1.occur hfits hword h.2 ho, h.2.occur o⟩) ⟨h, horderly⟩ hos

omit hword in
/-- A sweep returns, goes on as it was, or comes nearer to its end with an answer. -/
theorem Healthy.progress (h : v.Healthy policy T) (horderly : v.Orderly) {s : Sweep}
    (hw : v.worker = .sweeping s) {o : Occurrence} (ho : o.Within T) (hstop : o ≠ .stop) :
    (v.occur policy o).worker = Worker.rest policy ∨
      ∃ s', (v.occur policy o).worker = .sweeping s' ∧
        s'.load + [o].countP Occurrence.isAnswer ≤ s.load := by
  have hstep : Step policy v o (v.occur policy o) := occur_step o
  generalize v.occur policy o = v' at hstep
  cases hstep with
  | still journal hstill =>
    refine Or.inr ⟨s, hw, ?_⟩
    rcases hstill s hw with rfl | rfl
    · exact Nat.le_refl _
    · exact Nat.le_refl _
  | scheduled journal hidle =>
    rw [hw] at hidle
    cases hidle
  | halted => exact absurd rfl hstop
  | begun hidle =>
    rw [hw] at hidle
    rcases hidle with hidle | hidle <;> cases hidle
  | @resumed _ s' answer journal hw' hcall =>
    cases hw.symm.trans hw'
    rcases hcall with rfl | ⟨rfl, -⟩
    · exact (h.resume hfits horderly hw ho journal).2
    · exact absurd rfl hstop
  | other t => exact Or.inr ⟨s, hw, Nat.le_refl _⟩

/-- With as many answers as its load a sweep returns. -/
theorem Healthy.returns (h : v.Healthy policy T) (horderly : v.Orderly) {s : Sweep}
    (hw : v.worker = .sweeping s) {os : List Occurrence} (hos : ∀ o ∈ os, o.Within T ∧ o ≠ .stop)
    (hmany : s.load ≤ os.countP Occurrence.isAnswer) :
    ∃ us, us <+: os ∧ (v.after policy us).worker = Worker.rest policy := by
  induction os generalizing v s with
  | nil =>
    have hpos := (horderly.waiting s hw).load_pos
    simp only [List.countP_nil] at hmany
    omega
  | cons o os ih =>
    obtain ⟨ho, hstop⟩ := hos o List.mem_cons_self
    rcases h.progress hfits horderly hw ho hstop with hrests | ⟨s', hw', hle⟩
    · exact ⟨[o], List.prefix_append [o] os, hrests⟩
    · have hsplit : (o :: os).countP Occurrence.isAnswer =
          [o].countP Occurrence.isAnswer + os.countP Occurrence.isAnswer := by
        rw [← List.countP_append, List.singleton_append]
      obtain ⟨us, hus, hrests⟩ := ih (h.occur hfits hword horderly ho) (horderly.occur o) hw'
        (fun o' ho' => hos o' (List.mem_cons_of_mem o ho')) (by omega)
      exact ⟨o :: us, (List.prefix_cons_inj o).mpr hus, hrests⟩

/-- A worker that is started comes to the end of its first sweep. -/
theorem Healthy.comes_to_rest (h : v.Healthy policy T) (horderly : v.Orderly)
    (hw : v.worker.isRunning = false) :
    ∃ os, (∀ o ∈ os, o.Within T) ∧ (v.after policy os).worker = Worker.rest policy := by
  have hbegun : (v.occur policy .start).occur policy .wake =
      (v.occur policy .start).leave (Worker.beginSweep policy (v.occur policy .start).desk) :=
    wake_of_scheduled (scheduled_of_start hw)
  have hfirst := h.occur hfits hword horderly (o := .start) trivial
  obtain ⟨hhealthy, hturn⟩ := hfirst.begin hfits hword (horderly.occur .start)
  rcases hturn with hrests | ⟨s, hs⟩
  · refine ⟨[.start, .wake], by simp [Occurrence.Within], ?_⟩
    exact (congrArg worker hbegun).trans hrests
  · -- Every call is answered until the sweep returns.
    have hgood : ∀ o ∈ List.replicate s.load (Occurrence.answer (.ok "")), o.Within T ∧ o ≠ .stop := by
      intro o ho
      rw [List.eq_of_mem_replicate ho]
      exact ⟨nofun, nofun⟩
    have hmany : s.load ≤
        (List.replicate s.load (Occurrence.answer (.ok ""))).countP Occurrence.isAnswer := by
      simp [List.countP_replicate, Occurrence.isAnswer]
    obtain ⟨us, hus, hrests⟩ := hhealthy.returns hfits hword
      (hbegun ▸ (horderly.occur .start).occur .wake) hs hgood hmany
    refine ⟨.start :: .wake :: us, ?_, ?_⟩
    · simp only [List.forall_mem_cons]
      exact ⟨trivial, trivial, fun o ho => (hgood o (hus.subset ho)).1⟩
    · rw [← hbegun] at hrests
      exact hrests

theorem Healthy.survives (h : v.Healthy policy T) (horderly : v.Orderly)
    (hpause : Worker.rest policy = .asleep) : v.Survives policy T := by
  refine ⟨fun f hf => ?_, fun s hw => ⟨s.load, fun os hos hmany => ?_⟩⟩
  · rcases h.unbroken f hf with hcancelled | hrests
    · exact hcancelled
    · cases hpause.symm.trans hrests
  · exact hpause ▸ h.returns hfits hword horderly hw hos hmany

end healthy

/-! ## Services that do not -/

/-- If what is due cannot be listed, the failure ends the worker when it has its first turn. -/
theorem start_breaks (hw : v.worker.isRunning = false) (hopen : v.desk.store.closed = false)
    (h : ¬ (policy.lease.Fits v.desk.now ∧ Cell.isWord policy.retryLimit = true)) :
    ∃ f, (v.after policy [.start, .wake]).worker = .ended f ∧ f.isCancellation = false := by
  obtain ⟨f, hlist⟩ := Store.listDue_fails hopen (Calendar.Moment.utc?_ofInstant v.desk.now) h
  have hstart : v.worker.start v.desk = (v.desk.log Worker.startedRecord, .scheduled) := by
    rw [Worker.start, if_neg (by simp [hw])]
  have hended : Sweep.list policy v.desk.moment (v.desk.log Worker.startedRecord) =
      ⟨policy, [], 0, .ended (some f)⟩ := by
    have hlist' : (v.desk.log Worker.startedRecord).store.listDue v.desk.moment policy.retryLimit
        Sweep.listLimit policy.lease = .error f := hlist
    rw [Sweep.list, hlist']
  refine ⟨f, ?_, v.desk.store.neverCancels_listDue _ _ _ _ f hlist⟩
  change ((v.worker.start v.desk).2.wake policy (v.worker.start v.desk).1).2 = .ended f
  rw [hstart]
  change Worker.ofSweep ((Sweep.list policy v.desk.moment (v.desk.log Worker.startedRecord)).proceed
    (v.desk.log Worker.startedRecord)).2 = .ended f
  rw [hended, Sweep.proceed_of_not_busy (by simp [Sweep.isBusy])]
  rfl

/-- The clock counts a pause if the interval is not too large for a binary number. -/
theorem rest_eq_asleep_iff (policy : Policy) :
    Worker.rest policy = .asleep ↔ policy.pollInterval < Binary64.overflowBound := by
  have hleast : (Worker.leastPause : Int) < Binary64.overflowBound := by decide +kernel
  have hpause : (Binary64.ofInt (Worker.pause policy.pollInterval)).isInfinite = true ↔
      (Binary64.overflowBound : Int) ≤ policy.pollInterval := by
    rw [Binary64.isInfinite_ofInt_iff]
    simp only [Worker.pause, Worker.leastPause] at hleast ⊢
    omega
  rw [Worker.rest]
  split
  · rename_i hlarge
    exact ⟨nofun, fun hsmall => absurd (hpause.mp hlarge) (Int.not_le.mpr hsmall)⟩
  · rename_i hcounted
    exact ⟨fun _ => Int.not_le.mp fun hle => hcounted (hpause.mpr hle), fun _ => rfl⟩

def startedAt (t : Instant) : List Occurrence :=
  [.other (.setClock t), .start, .wake]

/-- The worker of an application whose settings were accepted goes on, whatever the messenger answers
at such times, if and only if a column holds the retry limit, the interval between sweeps is not too large
for a binary number, and the calendar reaches back by the lease from each of these times. -/
theorem survives_iff {env : Environment} {s : Settings} (hload : Settings.load env = .ok s) {c : Crew}
    (hc : c.store.WellNumbered) (hopen : c.store.closed = false) (hlegible : c.store.Legible)
    {T : Instant → Prop} (hnow : T c.desk.now) :
    (∀ os, (∀ o ∈ os, o.Within T) → ((before c).after s.policy os).Survives s.policy T) ↔
      s.retryLimit < Cell.wordBound ∧ s.pollInterval < Binary64.overflowBound ∧
        ∀ t, T t → s.claimLease * 1000000 ≤ t.micros := by
  have hlimit := Settings.one_le_retryLimit hload
  have hword : Cell.isWord s.policy.retryLimit = true ↔ s.retryLimit < Cell.wordBound := by
    have hpolicy : s.policy.retryLimit = s.retryLimit := rfl
    have hbound : (0 : Int) < Cell.wordBound := by decide
    simp only [Cell.isWord, hpolicy, Bool.and_eq_true, decide_eq_true_eq]
    omega
  constructor
  · intro hsurvives
    have hgoes (t : Instant) (ht : T t) :
        s.policy.lease.Fits t ∧ Cell.isWord s.policy.retryLimit = true := by
      -- Started at a time at which nothing can be listed, the worker ends at once.
      by_contra hstuck
      obtain ⟨f, hended, hfailure⟩ := start_breaks
        (v := (before c).occur s.policy (.other (.setClock t))) rfl hopen hstuck
      have hwithin : ∀ o ∈ startedAt t, o.Within T := by
        simp [startedAt, Occurrence.Within, Turn.Typed, ht]
      have hcancelled := (hsurvives (startedAt t) hwithin).unbroken f hended
      cases hfailure.symm.trans hcancelled
    refine ⟨hword.mp (hgoes _ hnow).2, ?_, fun t ht => Lease.fits_whole_iff.mp (hgoes t ht).1⟩
    -- The first sweep returns, and then the pause must not end the worker.
    have hhealthy : (before c).Healthy s.policy T := healthy_before hlegible hnow
    obtain ⟨os, hos, hrests⟩ := hhealthy.comes_to_rest (fun t ht => (hgoes t ht).1) (hgoes _ hnow).2
      (orderly_before hc hopen) rfl
    refine (rest_eq_asleep_iff s.policy).mp ?_
    rcases Worker.rest_cases s.policy with hasleep | hended
    · exact hasleep
    · cases (hsurvives os hos).unbroken _ (hrests.trans hended)
  · rintro ⟨hfew, hcounted, hfits⟩ os hos
    have hfits' (t : Instant) (ht : T t) : s.policy.lease.Fits t := Lease.fits_whole_iff.mpr (hfits t ht)
    obtain ⟨hhealthy, horderly⟩ := (healthy_before hlegible hnow).after hfits' (hword.mpr hfew)
      (orderly_before hc hopen) hos
    exact hhealthy.survives hfits' (hword.mpr hfew) horderly ((rest_eq_asleep_iff _).mpr hcounted)

/-- An environment in which only the token is given. -/
def onlyToken : Environment :=
  [(Settings.tokenName, "token")]

/-- From noon on the worker goes on, with the settings that stand for the missing ones. -/
theorem survives_iff_token :
    ∃ s, Settings.load onlyToken = .ok s ∧
      ∀ os, (∀ o ∈ os, o.Within (Crew.noon ≤ ·)) →
        ((before (Crew.idle Crew.noon)).after s.policy os).Survives s.policy (Crew.noon ≤ ·) := by
  have hload : Settings.load onlyToken = .ok (.ofToken "token") := rfl
  refine ⟨_, hload, ?_⟩
  have hiff := survives_iff hload (Crew.isFresh_idle Crew.noon).wellNumbered rfl Store.legible_empty
    (T := (Crew.noon ≤ ·)) (Nat.le_refl _)
  refine hiff.mpr ⟨by decide, by decide +kernel, fun t ht => ?_⟩
  have hnoon : (Crew.noon.micros : Int) ≤ t.micros := Int.ofNat_le.mpr ht
  exact Int.le_trans (by decide +kernel) hnoon

/-- A lease of more than three thousand years is accepted, and ends the worker when it has its first
turn. -/
theorem long_lease_breaks_worker :
    ∃ s, Settings.load (("PENDING_CLAIM_LEASE_SECONDS", "100000000000") :: onlyToken) = .ok s ∧
      ∃ f, ((before (Crew.idle Crew.noon)).after s.policy [.start, .wake]).worker = .ended f ∧
        f.isCancellation = false := by
  refine ⟨{ Settings.ofToken "token" with claimLease := 100000000000 }, by rfl, ?_⟩
  exact start_breaks (v := before (Crew.idle Crew.noon)) rfl rfl (by decide +kernel)

end Service

end Outbox

end Courier
