import Courier.Proofs.Crew.Posting
import Courier.Proofs.Crew.Punctuality
import Courier.Proofs.Crew.Retries
import Courier.Proofs.Crew.Staleness

/-!
# Sweeps that follow one another

When each sweep begins after all before it are over, the row of a message notes every recipient that
was reached by then. So a sweep calls for some of the recipients, in their order, and for one that was
reached no later sweep calls.
-/

namespace Courier.Outbox

open Message (Payload)

/-- The message to one recipient after another. -/
def letters (title body : String) (recipients : List String) : List Payload :=
  recipients.map fun x => ⟨.text title, .text body, [x]⟩

/-! ## What a sweep is still to send -/

/-- The calls for a message that a sweep which is at work on it has still to make. -/
def Activity.upcoming (id : Int) : Activity → List Payload
  | sending p recipient rest _ => if p.id = id then letters p.title p.body (recipient :: rest) else []
  | noting p _ rest _ => if p.id = id then letters p.title p.body rest else []
  | _ => []

theorem Activity.upcoming_toNext (id : Int) (p : Pending) (receipts rest : List String) :
    (toNext p receipts rest).upcoming id = if p.id = id then letters p.title p.body rest else [] := by
  cases rest with
  | nil => exact (ite_self _).symm
  | cons x rest => rfl

theorem Activity.upcoming_of_not_holding {a : Activity} {id : Int} (h : a.holding? ≠ some id) :
    a.upcoming id = [] := by
  cases a with
  | sending p | noting p =>
    have hid : ¬ p.id = id := fun hid => h (congrArg some hid)
    exact if_neg hid
  | _ => rfl

namespace Sweep
variable {s s' : Sweep} {d : Desk} {st' : Store} {id : Int}

theorem Step.upcoming_sublist (h : s.Step d s' st') (hclaims : s.claims? d ≠ some id) :
    (s'.activity.upcoming id).Sublist (s.activity.upcoming id) := by
  cases h with
  | still => exact List.Sublist.refl _
  | @claimed p due _ _ _ _ _ hclaims' =>
    have hid : ¬ p.id = id := fun hid => hclaims (hid ▸ hclaims')
    rw [Activity.upcoming_toNext, if_neg hid]
    exact List.nil_sublist _
  | noted hact | absent hact =>
    rw [hact, turnTo, Activity.upcoming_toNext]
    exact List.Sublist.refl _
  | reported _ _ hnext =>
    rcases hnext with rfl | rfl
    · exact List.nil_sublist _
    · exact List.nil_sublist _
  | finished | passed | stuck | unnoted | completed | confirmed | released | returned =>
    exact List.nil_sublist _

theorem answered_upcoming (answer : Except Failure String) (s : Sweep) (d : Desk) (id : Int) :
    ((s.answered answer d).2.activity.upcoming id).Sublist (s.activity.upcoming id) := by
  cases hact : s.activity with
  | sending p recipient rest receipts =>
    cases answer with
    | ok receipt =>
      rw [answered_ok hact]
      by_cases hid : p.id = id
      · simp only [turnTo, Activity.upcoming, if_pos hid]
        exact List.sublist_cons_self _ _
      · simp only [turnTo, Activity.upcoming, if_neg hid]
        exact List.Sublist.refl _
    | error f =>
      rw [answered_error hact]
      dsimp only [turnTo]
      split
      · exact List.nil_sublist _
      · exact List.nil_sublist _
  | alerting p attempts cause =>
    have hnone : (s.answered answer d).2.activity.upcoming id = [] := by
      cases answer with
      | ok receipt => simp [answered, hact, turnTo, Activity.upcoming]
      | error f =>
        simp only [answered, hact]
        split
        · rfl
        · rfl
    rw [hnone]
    exact List.nil_sublist _
  | noting | taking | completing | confirming | releasing | reporting | returning | ended =>
    rw [← hact]
    have hsame : (s.answered answer d).2 = s := by simp [answered, hact]
    rw [hsame]

end Sweep

namespace Crew

/-! ## Calls so far -/

def payloadsIn (made : List Call) (i : Nat) : List Payload :=
  (made.filter fun call => call.sweep == i).map (·.payload)

/-- A sweep calls for some of the payloads, in their order; the sweeps follow one another, and a payload
for which a call succeeded is not called for in a later sweep. -/
structure Settles (payloads : List Payload) (made : List Call) : Prop where
  inOrder : ∀ i, (payloadsIn made i).Sublist payloads
  once : made.Pairwise fun a b =>
    a.sweep ≤ b.sweep ∧ (a.answer.isOk = true → b.payload = a.payload → b.sweep = a.sweep)

section settles
variable {payloads : List Payload} {made : List Call} {call : Call}

theorem payloadsIn_concat (made : List Call) (call : Call) (i : Nat) :
    payloadsIn (made ++ [call]) i =
      payloadsIn made i ++ if call.sweep = i then [call.payload] else [] := by
  rw [payloadsIn, payloadsIn, List.filter_append, List.map_append]
  by_cases hi : call.sweep = i
  · rw [if_pos hi, List.filter_cons_of_pos (by simp [hi])]
    rfl
  · rw [if_neg hi, List.filter_cons_of_neg (by simp [hi])]
    rfl

theorem settles_nil (payloads : List Payload) : Settles payloads [] :=
  ⟨fun _ => List.nil_sublist _, List.Pairwise.nil⟩

theorem Settles.concat (h : Settles payloads made) (hlast : ∀ a ∈ made, a.sweep ≤ call.sweep)
    (hnext : (payloadsIn made call.sweep ++ [call.payload]).Sublist payloads)
    (hnew : ∀ a ∈ made, a.answer.isOk = true → a.sweep ≠ call.sweep → call.payload ≠ a.payload) :
    Settles payloads (made ++ [call]) := by
  constructor
  · intro i
    rw [payloadsIn_concat]
    split
    · rename_i hi
      exact hi ▸ hnext
    · rw [List.append_nil]
      exact h.inOrder i
  · refine List.pairwise_append.mpr ⟨h.once, List.pairwise_singleton _ _, fun a ha b hb => ?_⟩
    rw [List.mem_singleton.mp hb]
    refine ⟨hlast a ha, fun hok hsame => ?_⟩
    by_contra hne
    exact hnew a ha hok (Ne.symm hne) hsame

theorem Settles.mem (h : Settles payloads made) (hcall : call ∈ made) : call.payload ∈ payloads := by
  apply (h.inOrder call.sweep).subset
  exact List.mem_map_of_mem (List.mem_filter.mpr ⟨hcall, by simp⟩)

/-- What a call of one sweep reached is not called for in a later sweep. -/
theorem Settles.not_again {a b : Call} (h : Settles payloads made) (ha : a ∈ made) (hb : b ∈ made)
    (hlt : a.sweep < b.sweep) (hok : a.answer.isOk = true) : b.payload ≠ a.payload := by
  intro hsame
  obtain ⟨i, hi, rfl⟩ := List.getElem_of_mem ha
  obtain ⟨j, hj, rfl⟩ := List.getElem_of_mem hb
  have honce := List.pairwise_iff_getElem.mp h.once
  rcases Nat.lt_trichotomy i j with hij | rfl | hij
  · exact Nat.ne_of_gt hlt ((honce i j hi hj hij).2 hok hsame)
  · exact Nat.lt_irrefl _ hlt
  · exact Nat.not_le.mpr hlt (honce j i hj hi hij).1

end settles

end Crew

/-! ## The sweep that may be at work -/

namespace Sweep
open Crew (payloadsIn Call)

/-- What the sweep at a place has made and is still to make of the calls for a message, and that it
spares those that earlier sweeps reached. -/
structure Minds (s : Sweep) (k : Nat) (id : Int) (payloads : List Payload) (made : List Call) :
    Prop where
  dueNodup : (s.due.map (·.id)).Nodup
  due : ∀ p ∈ s.due, p.id = id → s.activity.holding? ≠ some id ∧ payloadsIn made k = [] ∧
    letters p.title p.body p.recipients = payloads ∧
    ∀ call ∈ made, call.answer.isOk = true → call.payload ∉ letters p.title p.body p.remaining
  upcoming : (payloadsIn made k ++ s.activity.upcoming id).Sublist payloads
  unreached : ∀ call ∈ made, call.answer.isOk = true → call.sweep ≠ k →
    call.payload ∉ s.activity.upcoming id

variable {s s' : Sweep} {k : Nat} {id : Int} {payloads : List Payload} {made : List Call} {d : Desk}

/-- A sweep that holds the message only if it held it before still minds what it did. -/
theorem Minds.mono (h : s.Minds k id payloads made) (hdue : s'.due <:+ s.due)
    (hupcoming : (s'.activity.upcoming id).Sublist (s.activity.upcoming id))
    (hholding : s'.activity.holding? = some id → s.activity.holding? = some id) :
    s'.Minds k id payloads made := by
  refine ⟨h.dueNodup.sublist (hdue.sublist.map _), fun p hp hid => ?_, ?_,
    fun call hcall hok hk hmem => ?_⟩
  · obtain ⟨hfree, hrest⟩ := h.due p (hdue.subset hp) hid
    exact ⟨fun hheld => hfree (hholding hheld), hrest⟩
  · exact ((List.Sublist.refl _).append hupcoming).trans h.upcoming
  · exact h.unreached call hcall hok hk (hupcoming.subset hmem)

theorem Minds.step {st' : Store} (h : s.Minds k id payloads made) (hstep : s.Step d s' st') :
    s'.Minds k id payloads made := by
  by_cases hclaims : s.claims? d = some id
  · obtain ⟨p, due, _, _, _, -, hdue, rfl, -, -, -, -, rfl, -⟩ := hstep.of_claims hclaims
    obtain ⟨-, hnone, rfl, hspared⟩ := h.due p (by simp [hdue]) rfl
    have hnodup := h.dueNodup
    rw [hdue, List.map_cons, List.nodup_cons] at hnodup
    refine ⟨hnodup.2, fun q hq hid => ?_, ?_, fun call hcall hok _ => ?_⟩
    · exact absurd (List.mem_map_of_mem (f := (·.id)) hq) (hid ▸ hnodup.1)
    · rw [hnone, List.nil_append, Activity.upcoming_toNext, if_pos rfl]
      exact List.filter_sublist.map _
    · rw [Activity.upcoming_toNext, if_pos rfl]
      exact hspared call hcall hok
  · refine h.mono hstep.due_suffix (hstep.upcoming_sublist hclaims) fun hheld => ?_
    exact ((hstep.holding hheld).resolve_left hclaims).1

theorem Minds.answered (h : s.Minds k id payloads made) (answer : Except Failure String) (d : Desk) :
    (s.answered answer d).2.Minds k id payloads made := by
  apply h.mono
  · exact ⟨[], by rw [List.nil_append, answered_due]⟩
  · exact answered_upcoming answer s d id
  · exact answered_holding

/-- A call of the sweep for the message takes the first of those that were still to be made. -/
theorem Minds.called (h : s.Minds k id payloads made) {p : Pending} {recipient : String}
    {rest receipts : List String} (hact : s.activity = .sending p recipient rest receipts)
    (hid : p.id = id) (answer : Except Failure String) (d : Desk) :
    (s.answered answer d).2.Minds k id payloads
      (made ++ [⟨k, id, ⟨.text p.title, .text p.body, [recipient]⟩, answer⟩]) := by
  have hholding : s.activity.holding? = some id := by
    rw [hact, ← hid]
    rfl
  have hupcoming : s.activity.upcoming id = letters p.title p.body (recipient :: rest) := by
    rw [hact, Activity.upcoming, if_pos hid]
  have hall := h.upcoming
  rw [hupcoming, letters, List.map_cons] at hall
  have hrest : ((s.answered answer d).2.activity.upcoming id).Sublist
      (letters p.title p.body rest) := by
    cases answer with
    | ok receipt =>
      rw [answered_ok hact]
      simp only [turnTo, Activity.upcoming, if_pos hid]
      exact List.Sublist.refl _
    | error f =>
      rw [answered_error hact]
      dsimp only [turnTo]
      split
      · exact List.nil_sublist _
      · exact List.nil_sublist _
  refine ⟨?_, fun q hq hq' => ?_, ?_, fun call hcall hok hk hmem => ?_⟩
  · rw [answered_due]
    exact h.dueNodup
  · rw [answered_due] at hq
    exact absurd hholding (h.due q hq hq').1
  · rw [Crew.payloadsIn_concat, if_pos rfl, List.append_assoc]
    refine List.Sublist.trans ?_ hall
    exact (List.Sublist.refl _).append (hrest.cons_cons _)
  · rcases List.mem_append.mp hcall with hcall | hcall
    · have hmem' := (answered_upcoming answer s d id).subset hmem
      exact h.unreached call hcall hok hk hmem'
    · rw [List.mem_singleton.mp hcall] at hk
      exact hk rfl

end Sweep

namespace Crew

/-! ## One sweep after the other -/

/-- A sweep begins when all before it are over. -/
def Succeeds (c : Crew) : Turn → Prop
  | .join _ _ => ∀ s ∈ c.sweeps, s.outcome?.isSome = true
  | _ => True

theorem callsFor_append (c : Crew) (ts us : List Turn) (id : Int) :
    c.callsFor (ts ++ us) id = c.callsFor ts id ++ (c.after ts).callsFor us id := by
  simp only [callsFor, along_append, List.filter_append]

theorem callsFor_cons (c : Crew) (t : Turn) (ts : List Turn) (id : Int) :
    c.callsFor (t :: ts) id = c.callsFor [t] id ++ (c.turn t).callsFor ts id :=
  callsFor_append c [t] ts id

theorem callsFor_eq_nil {c : Crew} {t : Turn} {id : Int}
    (h : ∀ call, c.call? t = some call → call.id ≠ id) : c.callsFor [t] id = [] := by
  rw [callsFor, along_singleton, List.filter_eq_nil_iff]
  intro call hcall
  simpa using h call (Option.mem_toList.mp hcall)

/-- What is known of a message and the calls made for it, while each sweep begins after those before
it are over. No sweep but the one with a certain number is at work on the message, or will be. -/
structure Follows (id : Int) (title body : String) (recipients : List String) (c : Crew) (k : Nat)
    (made : List Call) : Prop where
  wellNumbered : c.store.WellNumbered
  admits : c.store.Admits id
  known : id ≤ c.store.lastId
  settles : Settles (letters title body recipients) made
  begun : ∀ call ∈ made, call.sweep ≤ k ∧ call.sweep < c.sweeps.length
  carries : ∀ r, c.store.find? id = some r → r.Carries title body recipients
  notes : ∀ r, c.store.find? id = some r → ∃ delivered, r.Notes delivered ∧
    ∀ call ∈ made, call.answer.isOk = true → ∀ x, call.payload.recipients = [x] →
      x ∈ delivered ∨ ∃ s, c.sweeps[k]? = some s ∧ s.activity.notes? = some (id, x)
  others : ∀ (i : Nat) (s : Sweep), c.sweeps[i]? = some s → i ≠ k → s.Passive id
  current : ∀ s, c.sweeps[k]? = some s → s.Minds k id (letters title body recipients) made

section follows
variable {c : Crew} {k : Nat} {id : Int} {title body : String} {recipients : List String}
  {made : List Call} (h : Follows id title body recipients c k made)
include h

/-- The row notes those that were reached; one that was reached just now is noted next. -/
theorem Follows.notes_turn (t : Turn) (r' : Row) (hr' : (c.turn t).store.find? id = some r') :
    ∃ delivered, r'.Notes delivered ∧
      ∀ call ∈ made, call.answer.isOk = true → ∀ x, call.payload.recipients = [x] →
        x ∈ delivered ∨ ∃ s, (c.turn t).sweeps[k]? = some s ∧ s.activity.notes? = some (id, x) := by
  cases hr : c.store.find? id with
  | none =>
    rw [absent_turn h.wellNumbered h.known hr t] at hr'
    cases hr'
  | some r =>
    obtain ⟨delivered, hnotes, hreached⟩ := h.notes r hr
    obtain ⟨delivered', hnotes', hmem, -⟩ := written_turn h.wellNumbered h.admits t hr hr' hnotes
    refine ⟨delivered', hnotes', fun call hcall hok x hx => ?_⟩
    rcases hreached call hcall hok x hx with hx' | ⟨s, hs, hnoting⟩
    · exact Or.inl ((hmem x).mpr (Or.inl hx'))
    · obtain ⟨s', hs', hturn⟩ := (turn_step h.wellNumbered t).sweepTurn hs
      cases hturn with
      | kept => exact Or.inr ⟨s, hs', hnoting⟩
      | advanced ht =>
        exact Or.inl ((hmem x).mpr (Or.inr (noted_singleton.mpr ⟨k, s, ht, hs, hnoting⟩)))
      | answered answer ht =>
        obtain ⟨p, rest, receipts, hact, -⟩ := Activity.notes?_eq_some hnoting
        rw [Sweep.answered_of_busy (by rw [Sweep.isBusy, hact])] at hs'
        exact Or.inr ⟨s, hs', hnoting⟩

section ended
variable (hover : ∀ s ∈ c.sweeps, s.outcome?.isSome = true)
include hover

/-- When all sweeps are over, everybody who was reached is noted. -/
theorem Follows.notes_over {r : Row} (hr : c.store.find? id = some r) : ∃ delivered,
    r.Notes delivered ∧ ∀ call ∈ made, call.answer.isOk = true →
      ∀ x, call.payload.recipients = [x] → x ∈ delivered := by
  obtain ⟨delivered, hnotes, hreached⟩ := h.notes r hr
  refine ⟨delivered, hnotes, fun call hcall hok x hx => ?_⟩
  refine (hreached call hcall hok x hx).resolve_right ?_
  rintro ⟨s, hs, hnoting⟩
  obtain ⟨f, hf⟩ := Sweep.ended_of_over (hover s (List.mem_of_getElem? hs))
  rw [hf] at hnoting
  cases hnoting

theorem Follows.minds_list (policy : Policy) (now : Calendar.Moment) :
    (Sweep.list policy now c.desk).Minds c.sweeps.length id (letters title body recipients) made := by
  obtain ⟨hnodup, hlisted⟩ := Sweep.list_due h.wellNumbered policy now (d := c.desk)
  have hnone : payloadsIn made c.sweeps.length = [] := by
    rw [payloadsIn, List.map_eq_nil_iff, List.filter_eq_nil_iff]
    intro call hcall hsame
    have hlt := (h.begun call hcall).2
    rw [beq_iff_eq] at hsame
    omega
  have hholding : (Sweep.list policy now c.desk).activity.holding? ≠ some id := by
    rw [Sweep.list_holding]
    exact (Option.some_ne_none id).symm
  refine ⟨hnodup, fun p hp hid => ?_, ?_, fun call _ _ _ => ?_⟩
  · obtain ⟨r, hr, hpending, -⟩ := hlisted p hp
    rw [hid] at hr
    obtain ⟨delivered, hd, hreached⟩ := h.notes_over hover hr
    obtain ⟨rfl, rfl, rfl, rfl⟩ := (h.carries r hr).pending hd hpending
    refine ⟨hholding, hnone, rfl, fun call hcall hok hmem => ?_⟩
    obtain ⟨x, hx, hpayload⟩ := List.mem_map.mp hmem
    have hx' := hreached call hcall hok x (by rw [← hpayload])
    simpa [hx'] using (List.mem_filter.mp hx).2
  · rw [hnone, List.nil_append, Activity.upcoming_of_not_holding hholding]
    exact List.nil_sublist _
  · rw [Activity.upcoming_of_not_holding hholding]
    exact List.not_mem_nil

theorem Follows.join (policy : Policy) (now : Calendar.Moment) :
    Follows id title body recipients (c.turn (.join policy now)) c.sweeps.length made := by
  refine ⟨h.wellNumbered, h.admits, h.known, h.settles, fun call hcall => ?_, h.carries,
    fun r hr => ?_, fun i s hs hi => passive_join hover hs hi, fun s hs => ?_⟩
  · have hlt := (h.begun call hcall).2
    simp only [turn, List.length_append]
    omega
  · obtain ⟨delivered, hd, hreached⟩ := h.notes_over hover hr
    exact ⟨delivered, hd, fun call hcall hok x hx => Or.inl (hreached call hcall hok x hx)⟩
  · have hlast : Sweep.list policy now c.desk = s := by simpa [turn] using hs
    exact hlast ▸ h.minds_list hover policy now

end ended

/-- In a turn that answers no call for the message, nothing is added to the calls. -/
theorem Follows.unseen {t : Turn} (hjoin : ∀ policy now, t ≠ .join policy now)
    (hnone : c.callsFor [t] id = []) :
    Follows id title body recipients (c.turn t) k (made ++ c.callsFor [t] id) := by
  have hstep := turn_step h.wellNumbered t
  rw [hnone, List.append_nil]
  refine ⟨hstep.wellNumbered h.wellNumbered, (admits_after h.wellNumbered [t]).mpr h.admits,
    Int.le_trans h.known hstep.lastId_le, h.settles, fun call hcall => ?_,
    carries_turn h.wellNumbered h.known h.carries t, h.notes_turn t, fun i s hs hi => ?_,
    fun s hs => ?_⟩
  · obtain ⟨hle, hlt⟩ := h.begun call hcall
    obtain ⟨s', hs', -⟩ := hstep.sweepTurn (List.getElem?_eq_getElem hlt)
    exact ⟨hle, (List.getElem?_eq_some_iff.mp hs').1⟩
  · cases hstep.sweep hs with
    | kept hs' => exact h.others i s hs' hi
    | joined policy now ht => exact absurd ht (hjoin policy now)
    | advanced _ hs' hsweep => exact ((h.others i _ hs' hi).step hsweep h.wellNumbered).1
    | answered answer _ hs' he => exact he ▸ (h.others i _ hs' hi).answered answer c.desk
  · cases hstep.sweep hs with
    | kept hs' => exact h.current s hs'
    | joined policy now ht => exact absurd ht (hjoin policy now)
    | advanced _ hs' hsweep => exact (h.current _ hs').step hsweep
    | answered answer _ hs' he => exact he ▸ (h.current _ hs').answered answer c.desk

theorem Follows.called {s : Sweep} (hs : c.sweeps[k]? = some s) {p : Pending} {recipient : String}
    {rest receipts : List String} (hact : s.activity = .sending p recipient rest receipts)
    (hid : p.id = id) (answer : Except Failure String) :
    Follows id title body recipients (c.turn (.answer k answer)) k
      (made ++ [⟨k, id, ⟨.text p.title, .text p.body, [recipient]⟩, answer⟩]) := by
  have hk := (List.getElem?_eq_some_iff.mp hs).1
  have hminds := (h.current s hs).called hact hid answer c.desk
  have hupcoming : s.activity.upcoming id = letters p.title p.body (recipient :: rest) := by
    rw [hact, Activity.upcoming, if_pos hid]
  have hstore : (c.turn (.answer k answer)).store = c.store := by
    rw [turn_answer hs]
    exact Sweep.answered_store answer s c.desk
  have hlast : (c.turn (.answer k answer)).sweeps[k]? = some (s.answered answer c.desk).2 := by
    rw [turn_answer hs]
    exact List.getElem?_set_self hk
  refine ⟨hstore ▸ h.wellNumbered, hstore ▸ h.admits, hstore ▸ h.known, ?_, fun call hcall => ?_,
    hstore ▸ h.carries, fun r hr => ?_, fun i s' hs' hi => ?_, fun s' hs' => ?_⟩
  · refine h.settles.concat (fun call hcall => (h.begun call hcall).1) ?_ fun call hcall hok hk hsame => ?_
    · have hnext := hminds.upcoming
      rw [payloadsIn_concat, if_pos rfl] at hnext
      exact (List.sublist_append_left _ _).trans hnext
    · apply (h.current s hs).unreached call hcall hok hk
      rw [hupcoming, ← hsame]
      exact List.mem_cons_self
  · rw [turn_answer hs, List.length_set]
    rcases List.mem_append.mp hcall with hcall | hcall
    · exact h.begun call hcall
    · rw [List.mem_singleton.mp hcall]
      exact ⟨Nat.le_refl k, hk⟩
  · rw [hstore] at hr
    obtain ⟨delivered, hd, hreached⟩ := h.notes r hr
    refine ⟨delivered, hd, fun call hcall hok x hx => ?_⟩
    rcases List.mem_append.mp hcall with hcall | hcall
    · refine Or.inl ((hreached call hcall hok x hx).resolve_right ?_)
      rintro ⟨s', hs', hnoting⟩
      rw [hs] at hs'
      cases hs'
      rw [hact] at hnoting
      cases hnoting
    · rw [List.mem_singleton.mp hcall] at hok hx
      cases hx
      cases answer with
      | ok receipt =>
        rw [Sweep.answered_ok hact] at hlast
        exact Or.inr ⟨_, hlast, by rw [← hid]; rfl⟩
      | error f => cases hok
  · rw [turn_answer hs] at hs'
    exact h.others i s' (by rwa [List.getElem?_set_ne (Ne.symm hi)] at hs') hi
  · rw [hlast] at hs'
    cases hs'
    exact hminds

theorem Follows.answer (i : Nat) (answer : Except Failure String) :
    ∃ calls, c.callsFor [.answer i answer] id = calls ∧
      Follows id title body recipients (c.turn (.answer i answer)) k (made ++ calls) := by
  by_cases hcall : ∃ call, c.call? (.answer i answer) = some call ∧ call.id = id
  · obtain ⟨call, hcall, hid⟩ := hcall
    obtain ⟨hturn, s, p, recipient, rest, receipts, hs, hact, hp, hpayload⟩ := call?_eq_some hcall
    obtain ⟨rfl, rfl⟩ := Turn.answer.inj hturn
    have hk : call.sweep = k := by
      by_contra hne
      apply (h.others _ s hs hne).not_holding
      rw [hact, ← hid, hp]
      rfl
    have hcalls : c.callsFor [.answer call.sweep call.answer] id = [call] := by
      rw [callsFor, along_singleton, hcall]
      simp [hid]
    refine ⟨[call], hcalls, ?_⟩
    obtain ⟨i, callId, payload, answer⟩ := call
    dsimp only at hk hid hpayload hs hp ⊢
    subst hk hid hpayload
    exact h.called hs hact hp.symm answer
  · have hnone : c.callsFor [.answer i answer] id = [] :=
      callsFor_eq_nil fun call h hid => hcall ⟨call, h, hid⟩
    have hunseen := h.unseen (fun _ _ h => by cases h) hnone
    exact ⟨_, rfl, hunseen⟩

theorem Follows.turn {t : Turn} (ht : c.Succeeds t) :
    ∃ k', Follows id title body recipients (c.turn t) k' (made ++ c.callsFor [t] id) := by
  cases t with
  | join policy now =>
    have hnone : c.callsFor [.join policy now] id = [] := callsFor_eq_nil fun call hcall => by
      cases hcall
    rw [hnone, List.append_nil]
    exact ⟨_, h.join ht policy now⟩
  | answer i answer =>
    obtain ⟨_, rfl, hfollows⟩ := h.answer i answer
    exact ⟨k, hfollows⟩
  | setClock | create | dispatch | cancel | cancelAll | advance =>
    refine ⟨k, h.unseen (fun _ _ h => by cases h) (callsFor_eq_nil fun call hcall => ?_)⟩
    cases hcall

end follows

theorem Follows.after {c : Crew} {k : Nat} {id : Int} {title body : String}
    {recipients : List String} {made : List Call}
    (h : Follows id title body recipients c k made) {ts : List Turn}
    (hts : c.Throughout Succeeds ts) :
    ∃ k', Follows id title body recipients (c.after ts) k' (made ++ c.callsFor ts id) := by
  induction ts generalizing c k made with
  | nil => exact ⟨k, (List.append_nil made).symm ▸ h⟩
  | cons t ts ih =>
    obtain ⟨k₁, h₁⟩ := h.turn hts.1
    obtain ⟨k', h'⟩ := ih h₁ hts.2
    rw [List.append_assoc, ← callsFor_cons] at h'
    exact ⟨k', h'⟩

/-! ## From the beginning -/

theorem Aware.after {c : Crew} (h : c.Aware) (ts : List Turn) : (c.after ts).Aware := by
  induction ts generalizing c with
  | nil => exact h
  | cons t ts ih => exact ih (h.turn t)

/-- No call was made for a message that was stored just now, and no sweep knows it. -/
theorem follows_create {c : Crew} (hc : c.Aware) {t : Turn} {now : Calendar.Instant} {draft : Draft}
    {recipients : List String} {id : Int} {st : Store}
    (hrecipients : draft.recipients = .list (recipients.map Value.text))
    (hcreate : Store.create now draft c.store = .ok (id, st)) (hturn : (c.turn t).store = st) :
    ∃ r, (c.turn t).store.find? id = some r ∧
      Follows id r.title r.body recipients (c.turn t) c.sweeps.length [] := by
  have hwell := hc.bounded.wellNumbered
  have hopen := Store.create_open hcreate
  obtain ⟨_, items, row, -, hitems, hrow, rfl, rfl, hnew, hword⟩ := Store.create_row hcreate
  rw [hrecipients] at hitems
  cases hitems
  have hlt : c.store.lastId < row.id := by omega
  have hstep := turn_step hwell t
  have hlast : (c.turn t).store.lastId = row.id := by rw [hturn, Store.insertLast]
  have hsweeps := hstep.sweeps_eq (by omega)
  have hfind : (c.turn t).store.find? row.id = some row := by
    rw [hturn, Store.find?_insertLast hwell hlt, if_pos rfl]
  refine ⟨row, hfind, hstep.wellNumbered hwell, ⟨hstep.closed_eq.trans hopen, hword⟩, by omega,
    settles_nil _, fun call hcall => ?_, fun r hr => ?_, fun r hr => ?_, fun i s hs _ => ?_,
    fun s hs => ?_⟩
  · cases hcall
  · rw [hfind] at hr
    cases hr
    exact ⟨rfl, rfl, hrow.reads_recipients⟩
  · rw [hfind] at hr
    cases hr
    exact ⟨[], hrow.notes, fun call hcall => by cases hcall⟩
  · exact hc.passive hlt (hsweeps ▸ hs)
  · rw [hsweeps, List.getElem?_eq_none (Nat.le_refl _)] at hs
    cases hs

end Crew

end Courier.Outbox
