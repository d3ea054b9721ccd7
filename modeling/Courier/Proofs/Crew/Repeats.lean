import Courier.Proofs.Crew.Arrival
import Courier.Proofs.Crew.Succession
import Mathlib.Data.List.Count

/-!
# Recipients that occur more than once

A sweep reads the list of those that were reached when it lists a message, and not again while it sends
the message. So while sweeps follow one another all successful calls for a recipient are made in one
sweep, and there may be as many of them as the recipient occurs among the recipients of the message.
-/

namespace Courier.Outbox

open Message (Payload)

namespace Crew

/-- The payload was dispatched last, and was stored under the number. -/
def Posts (payload : Payload) (id : Int) (c₀ : Crew) : Prop :=
  ∃ (c : Crew) (before : List Turn) (delay automationId : Value) (d : Desk), c.IsFresh ∧
    Script.Dispatch.plan payload delay automationId (c.after before).desk = .store (.pending id) d ∧
    c₀ = c.after (before ++ [.dispatch payload delay automationId])

/-- The calls among some that reached a recipient. -/
def hits (x : String) (made : List Call) : List Call :=
  made.filter fun call => call.answer.isOk && call.payload.recipients == [x]

theorem mem_hits {x : String} {made : List Call} {call : Call} :
    call ∈ hits x made ↔
      call ∈ made ∧ call.answer.isOk = true ∧ call.payload.recipients = [x] := by
  rw [hits, List.mem_filter, Bool.and_eq_true, beq_iff_eq]

theorem length_hits (c : Crew) (ts : List Turn) (id : Int) (x : String) :
    (hits x (c.callsFor ts id)).length =
      (c.calls ts id).countP fun call => call.2 && call.1.recipients == [x] := by
  rw [hits, ← List.countP_eq_length_filter, calls, List.countP_map]
  rfl

/-! ## Calls of sweeps that follow one another -/

section settles
variable {title body x : String} {recipients : List String} {made : List Call}

theorem payload_of_mem_letters {payload : Payload} (h : payload ∈ letters title body recipients)
    (hx : payload.recipients = [x]) : payload = ⟨.text title, .text body, [x]⟩ := by
  obtain ⟨y, -, rfl⟩ := List.mem_map.mp h
  cases hx
  rfl

variable (h : Settles (letters title body recipients) made)
include h

/-- Once a recipient was reached, no later sweep calls for it. -/
theorem Settles.sweep_le_of_hit {hit call : Call} (hhit : hit ∈ hits x made) (hcall : call ∈ made)
    (hx : call.payload.recipients = [x]) : call.sweep ≤ hit.sweep := by
  obtain ⟨hmem, hok, hx'⟩ := mem_hits.mp hhit
  rw [← Nat.not_lt]
  intro hlt
  apply h.not_again hmem hcall hlt hok
  rw [payload_of_mem_letters (h.mem hmem) hx', payload_of_mem_letters (h.mem hcall) hx]

/-- In its sweep a recipient is reached as often as it occurs, at most. -/
theorem Settles.length_hits_le : (hits x made).length ≤ recipients.count x := by
  cases hhits : hits x made with
  | nil => exact Nat.zero_le _
  | cons hit rest =>
    have hhit : hit ∈ hits x made := by simp [hhits]
    have hsame : (hits x made).filter (fun call => call.sweep == hit.sweep) = hits x made := by
      refine List.filter_eq_self.mpr fun call hcall => beq_iff_eq.mpr ?_
      obtain ⟨hmem, -, hx⟩ := mem_hits.mp hcall
      obtain ⟨hmem', -, hx'⟩ := mem_hits.mp hhit
      exact Nat.le_antisymm (h.sweep_le_of_hit hhit hmem hx) (h.sweep_le_of_hit hcall hmem' hx')
    have hsublist : ((hits x made).map (·.payload)).Sublist (letters title body recipients) := by
      rw [← hsame]
      exact ((List.filter_sublist.filter _).map _).trans (h.inOrder hit.sweep)
    have hrecipients : ((hits x made).map (·.payload)).map (·.recipients) =
        List.replicate (hits x made).length [x] := by
      rw [List.map_map, List.eq_replicate_iff]
      refine ⟨List.length_map _, fun xs hxs => ?_⟩
      obtain ⟨call, hcall, rfl⟩ := List.mem_map.mp hxs
      exact (mem_hits.mp hcall).2.2
    have hreplicated := hsublist.map (·.recipients)
    rw [hrecipients, letters, List.map_map, List.replicate_sublist_iff] at hreplicated
    have hcount : (recipients.map fun y => [y]).count [x] = recipients.count x :=
      List.count_map_of_injective recipients _ (fun _ _ => List.singleton_inj.mp) x
    rw [← hhits, ← hcount]
    exact hreplicated

end settles

/-- The calls for a message that was dispatched. -/
theorem Posts.settles {title body : String} {recipients : List String} {id : Int} {c₀ : Crew}
    (h : c₀.Posts ⟨.text title, .text body, recipients⟩ id) {ts : List Turn}
    (hts : c₀.Throughout Succeeds ts) :
    Settles (letters title body recipients) (c₀.callsFor ts id) := by
  obtain ⟨c, before, delay, automationId, d, hc, hplan, rfl⟩ := h
  obtain ⟨draft, id', -, -, -, hrecipients, hid, hcreate⟩ := plan_draft hplan
  cases hid
  obtain ⟨row, hrow, hwaits⟩ := waits_dispatch (wellNumbered_after hc.wellNumbered before) hplan
  rw [after_append, after_cons, after_nil] at hts ⊢
  have hturn : ((c.after before).turn (.dispatch ⟨.text title, .text body, recipients⟩ delay
      automationId)).store = d.store := by
    rw [turn, dispatch, hplan]
    rfl
  obtain ⟨r, hr, hstart⟩ := follows_create (hc.aware.after before) hrecipients hcreate hturn
  cases hrow.symm.trans hr
  rw [hwaits.carries.title, hwaits.carries.body] at hstart
  obtain ⟨k, hend⟩ := hstart.after hts
  exact hend.settles

/-! ## A sweep that reaches everybody -/

/-- Every call is answered with a receipt. -/
def receipts (_ : Crew) (_ : Payload) : Except Failure String :=
  .ok "receipt"

section delivery
variable {c : Crew} {i : Nat}

theorem alone_nextTurn (answer : Crew → Payload → Except Failure String) :
    (c.nextTurn i answer).Alone i := by
  unfold nextTurn
  split
  · exact ⟨fun j hj => (Option.some.inj hj).symm, rfl⟩
  · exact ⟨fun j hj => (Option.some.inj hj).symm, rfl⟩

theorem answer_nextTurn {j : Nat} {answer : Except Failure String}
    (h : c.nextTurn i receipts = .answer j answer) : answer.isOk = true := by
  unfold nextTurn at h
  split at h
  · cases h
    rfl
  · cases h

theorem forall_nextTurns {answer : Crew → Payload → Except Failure String} {P : Turn → Prop}
    (h : ∀ c, P (nextTurn c i answer)) (n : Nat) : ∀ t ∈ c.nextTurns i answer n, P t := by
  induction n generalizing c with
  | zero => exact fun t ht => absurd ht List.not_mem_nil
  | succ n ih =>
    intro t ht
    rcases List.mem_cons.mp ht with rfl | ht
    · exact h c
    · exact ih t ht

theorem calls_nextTurns {id : Int} {n : Nat} {call : Payload × Bool}
    (h : call ∈ c.calls (c.nextTurns i receipts n) id) : call.2 = true := by
  obtain ⟨call, hcall, rfl⟩ := List.mem_map.mp h
  obtain ⟨us, t, vs, hturns, hcall⟩ := mem_along (List.mem_filter.mp hcall).1
  have ht : t ∈ c.nextTurns i receipts n := by
    rw [hturns]
    exact List.mem_append_right us List.mem_cons_self
  exact forall_nextTurns (P := fun t => ∀ j answer, t = .answer j answer → answer.isOk = true)
    (fun _ _ _ => answer_nextTurn) n t ht _ _ (call?_eq_some hcall).1

variable {policy : Policy} {now : Calendar.Moment} {id : Int} {payload : Payload} {r : Row}
  {title body : String} {recipients : List String}

/-- A sweep that comes to a message and whose calls succeed calls for all its recipients. -/
theorem Reaching.calls_all (hc : c.store.WellNumbered) (hr : c.store.find? id = some r)
    (hwaits : r.Waits title body recipients [])
    (h : (c.turn (.join policy now)).Reaching c.sweeps.length policy id payload False) :
    ∃ n, c.calls (.join policy now ::
        (c.turn (.join policy now)).nextTurns c.sweeps.length receipts n) id =
      recipients.map fun x => (⟨.text title, .text body, [x]⟩, true) := by
  have hreceipts (c : Crew) (payload : Payload) (f : Failure) (hf : receipts c payload = .error f) :
      f.isCancellation = false := by cases hf
  obtain ⟨n, hunhindered, hended⟩ := h.exists_end hreceipts
  refine ⟨n, ?_⟩
  have hclaimed := (h.delivers hc hunhindered hended).claimed
  obtain ⟨p, hp, rfl, hmade⟩ :=
    ended_after_sweep hc (forall_nextTurns (fun _ => alone_nextTurn _) n) hclaimed hended
  obtain ⟨r', hr', hpending, -⟩ := (Sweep.list_due hc policy now).2 p hp
  cases hr.symm.trans hr'
  obtain ⟨rfl, rfl, rfl, hdelivered⟩ := hwaits.carries.pending hwaits.notes hpending
  have hremaining : p.remaining = p.recipients := by simp [Pending.remaining, hdelivered]
  have hjoined : c.calls [.join policy now] p.id = [] := calls_eq_nil fun call hcall => by cases hcall
  have hok := @calls_nextTurns (c.turn (.join policy now)) c.sweeps.length p.id n
  rw [calls_cons, hjoined, List.nil_append] at hmade ⊢
  generalize (c.turn (.join policy now)).calls _ p.id = made at hmade hok ⊢
  generalize (c.after (.join policy now :: _)).store.find? p.id = o at hmade
  cases hmade with
  | delivered =>
    rw [Pending.calls, hremaining]
  | @interrupted _ reached rest x =>
    cases hok (List.mem_append_right _ (List.mem_singleton_self _))

end delivery

/-! ## A message that is dispatched at noon -/

/-- The payload is to be sent after five minutes. -/
def postedAtNoon (payload : Payload) : Crew :=
  (idle noon).after ([] ++ [.dispatch payload (.int 5) .null])

theorem sweeps_postedAtNoon (payload : Payload) : (postedAtNoon payload).sweeps = [] := by
  rw [postedAtNoon, List.nil_append, after_cons, after_nil, turn, dispatch]
  split
  · rfl
  · rfl

theorem now_postedAtNoon (payload : Payload) : (postedAtNoon payload).desk.now = noon :=
  now_turn (c := idle noon) (t := .dispatch payload (.int 5) .null) (by simp)

section posted
variable (title body : String) {recipients : List String} (hrecipients : recipients ≠ [])
include hrecipients

theorem plan_at_noon : ∃ d, Script.Dispatch.plan ⟨.text title, .text body, recipients⟩ (.int 5) .null
    ((idle noon).after []).desk = .store (.pending 1) d := by
  have hcreates (t : Calendar.Instant) :
      (Store.create noon (Script.Dispatch.draftAt t .null ⟨.text title, .text body, recipients⟩)
        Store.empty).isOk = true := by
    simp only [Store.create, Script.Dispatch.draftAt, instantOf_ofInstant]
    rfl
  rcases Script.Dispatch.plan_delayed ⟨.text title, .text body, recipients⟩ .null
      ((idle noon).after []).desk hrecipients (by decide : (0 : Int) < 5) with
    ⟨hnone, -⟩ | ⟨t, -, ⟨f, hf, -⟩ | ⟨id, store, hcreate, hplan⟩⟩
  · cases minutesFrom?_noon.symm.trans hnone
  · have hok := hcreates t
    rw [show Store.create noon _ Store.empty = .error f from hf] at hok
    cases hok
  · change Store.create noon (Script.Dispatch.draftAt t (.ofOptionInt none) _) _ = _ at hcreate
    obtain ⟨_, -, -, hnew, -⟩ := Script.Dispatch.stores_of_create hcreate
    obtain rfl : id = 1 := hnew
    exact ⟨_, hplan⟩

theorem posts_postedAtNoon :
    Posts ⟨.text title, .text body, recipients⟩ 1
      (postedAtNoon ⟨.text title, .text body, recipients⟩) := by
  obtain ⟨d, hplan⟩ := plan_at_noon title body hrecipients
  exact ⟨idle noon, [], .int 5, .null, d, isFresh_idle noon, hplan, rfl⟩

/-- The message is there alone, and waits for its time. -/
theorem unheard_postedAtNoon : ∃ row,
    (postedAtNoon ⟨.text title, .text body, recipients⟩).store = Store.empty.insertLast row ∧
    row.id = 1 ∧ Script.Dispatch.Stores title body recipients none fivePastNoon row ∧
    (postedAtNoon ⟨.text title, .text body, recipients⟩).Unheard 1 fivePastNoon row := by
  obtain ⟨d, hplan⟩ := plan_at_noon title body hrecipients
  have hplan' : Script.Dispatch.plan ⟨.text title, .text body, recipients⟩ (.int 5) (.ofOptionInt none)
      ((idle noon).after []).desk = .store (.pending 1) d := hplan
  obtain ⟨row, hstore, hid, hnew, hrow⟩ := Script.Dispatch.stores_of_plan hplan' minutesFrom?_noon
  have hturn : (postedAtNoon ⟨.text title, .text body, recipients⟩).store =
      Store.empty.insertLast row := by
    rw [postedAtNoon, List.nil_append, after_cons, after_nil, turn, dispatch]
    rw [after_nil] at hplan
    rw [hplan]
    exact hstore
  refine ⟨row, hturn, hid, hrow, ?_⟩
  rw [← hid]
  exact unheard_stored (isFresh_idle noon) []
    (t := .dispatch ⟨.text title, .text body, recipients⟩ (.int 5) .null) hturn (hid.trans hnew)
    hrow.scheduledAt

/-- A single sweep, which begins at one, reaches every recipient that the message names. -/
theorem exists_delivery : ∃ ts,
    (postedAtNoon ⟨.text title, .text body, recipients⟩).Throughout Succeeds ts ∧
    (postedAtNoon ⟨.text title, .text body, recipients⟩).calls ts 1 =
      recipients.map fun x => (⟨.text title, .text body, [x]⟩, true) := by
  obtain ⟨row, hstore, hid, hrow, hunheard⟩ := unheard_postedAtNoon title body hrecipients
  have hsweeps := sweeps_postedAtNoon ⟨.text title, .text body, recipients⟩
  have hnow := now_postedAtNoon ⟨.text title, .text body, recipients⟩
  have hlegible : (postedAtNoon ⟨.text title, .text body, recipients⟩).store.Legible :=
    legible_turn (isFresh_idle noon).wellNumbered Store.legible_empty
      (t := .dispatch ⟨.text title, .text body, recipients⟩ (.int 5) .null) ⟨none, rfl⟩
  generalize postedAtNoon ⟨.text title, .text body, recipients⟩ = c at *
  have hfind : c.store.find? 1 = some row := by
    rw [hstore, Store.find?_insertLast Store.wellNumbered_empty (by rw [hid]; decide), if_pos hid.symm]
  have hfits : thrice.lease.Fits oneOClock := by decide +kernel
  have hfirst : c.FirstSweep [.setClock oneOClock] thrice 1 fivePastNoon := by
    refine firstSweep_at_one (by decide) hfits (Option.isSome_of_eq_some hfind) ?_
    rw [hstore]
    exact Nat.lt_add_of_pos_left (by decide)
  have hontime : c.Throughout OnTime [.setClock oneOClock] := by
    refine ⟨?_, trivial⟩
    rw [OnTime, hnow]
    exact Nat.le_of_ble_eq_true (by decide +kernel)
  have hreaching := hfirst.reaching hunheard hrow hrecipients (by rw [hstore]; rfl) hlegible hontime
    (by simp [Turn.Typed]) rfl
  rw [after_cons, after_nil] at hreaching
  obtain ⟨n, hcalls⟩ := hreaching.calls_all (c := c.turn (.setClock oneOClock))
    hunheard.punctual.wellNumbered hfind hrow.waits
  have hbegins : (c.turn (.setClock oneOClock)).Succeeds
      (.join thrice (c.turn (.setClock oneOClock)).desk.moment) := by
    intro s hs
    change s ∈ c.sweeps at hs
    rw [hsweeps] at hs
    cases hs
  have hgoes (c' : Crew) :
      c'.Succeeds (c'.nextTurn (c.turn (.setClock oneOClock)).sweeps.length receipts) := by
    unfold nextTurn
    split
    · trivial
    · trivial
  refine ⟨.setClock oneOClock :: .join thrice (c.turn (.setClock oneOClock)).desk.moment :: _,
    ⟨trivial, hbegins, throughout_nextTurns hgoes _ n⟩, ?_⟩
  have hnone : c.calls [.setClock oneOClock] 1 = [] := calls_eq_nil fun call hcall => by cases hcall
  rw [calls_cons, hnone, List.nil_append]
  exact hcalls

end posted

/-- While sweeps follow one another, the calls that reach a recipient are all made in one sweep, after
which no sweep calls for the recipient, and there are no more of them than the recipient occurs among
those of the message. So it is reached once at most in every run if it does not occur twice, and only
then. -/
theorem reached_once_iff (title body : String) (recipients : List String) (x : String) :
    (∀ id c₀ ts, Posts ⟨.text title, .text body, recipients⟩ id c₀ → c₀.Throughout Succeeds ts →
      (hits x (c₀.callsFor ts id)).length ≤ recipients.count x ∧
      ∀ hit ∈ hits x (c₀.callsFor ts id), ∀ call ∈ c₀.callsFor ts id,
        call.payload.recipients = [x] → call.sweep ≤ hit.sweep) ∧
    ((∀ id c₀ ts, Posts ⟨.text title, .text body, recipients⟩ id c₀ → c₀.Throughout Succeeds ts →
      (hits x (c₀.callsFor ts id)).length ≤ 1) ↔ recipients.count x ≤ 1) := by
  refine ⟨fun id c₀ ts hposts hts => ?_, fun h => ?_, fun h id c₀ ts hposts hts => ?_⟩
  · have hsettles := hposts.settles hts
    exact ⟨hsettles.length_hits_le, fun hit hhit call hcall hx => hsettles.sweep_le_of_hit hhit hcall hx⟩
  · -- A sweep whose calls all succeed reaches the recipient as often as the message names it.
    by_cases hrecipients : recipients = []
    · simp [hrecipients]
    obtain ⟨ts, hts, hcalls⟩ := exists_delivery title body hrecipients
    have hreached := h 1 _ ts (posts_postedAtNoon title body hrecipients) hts
    have hall : (hits x ((postedAtNoon ⟨.text title, .text body, recipients⟩).callsFor ts 1)).length =
        recipients.count x := by
      rw [length_hits, hcalls, List.countP_map, List.count_eq_countP]
      exact List.countP_congr fun y _ => by simp
    omega
  · exact Nat.le_trans (hposts.settles hts).length_hits_le h

/-! ## A retry, and a recipient that occurs twice -/

/-- A sweep reaches the first of two recipients and fails at the second, and another one reaches that. -/
def retried : List Turn :=
  [.setClock oneOClock, .join thrice (.ofInstant oneOClock), .advance 0, .answer 0 (.ok "receipt"),
    .advance 0, .answer 0 down, .advance 0, .advance 0, .advance 0,
    .join thrice (.ofInstant oneOClock), .advance 1, .answer 1 (.ok "receipt"), .advance 1]

theorem succession_retried : (mailed ["ann", "bob"]).Throughout Succeeds retried := by
  refine ⟨trivial, ?_, trivial, trivial, trivial, trivial, trivial, trivial, trivial, ?_, trivial,
    trivial, trivial, trivial⟩
  · rw [Succeeds]
    decide +kernel
  · rw [Succeeds]
    decide +kernel

theorem reached_once_iff_retried :
    ((mailed ["ann", "bob"]).callsFor retried 1).length = 3 ∧
      (hits "ann" ((mailed ["ann", "bob"]).callsFor retried 1)).length ≤ 1 := by
  have hposts := posts_postedAtNoon "Hello" "See you at five." (List.cons_ne_nil "ann" ["bob"])
  have honce := (reached_once_iff "Hello" "See you at five." ["ann", "bob"] "ann").2.mpr (by decide)
  exact ⟨by decide +kernel, honce 1 _ retried hposts succession_retried⟩

/-- A sweep calls for both recipients of a letter. -/
def bothCalled : List Turn :=
  [.setClock oneOClock, .join thrice (.ofInstant oneOClock), .advance 0, .answer 0 (.ok "receipt"),
    .advance 0, .answer 0 (.ok "receipt"), .advance 0, .advance 0, .advance 0, .advance 0]

/-- The letter names the same recipient twice, and the recipient gets it twice. -/
theorem repeated_recipient_is_reached_twice :
    Posts (letter ["ann", "ann"]) 1 (mailed ["ann", "ann"]) ∧
      (mailed ["ann", "ann"]).Throughout Succeeds bothCalled ∧
      (hits "ann" ((mailed ["ann", "ann"]).callsFor bothCalled 1)).length = 2 := by
  refine ⟨posts_postedAtNoon "Hello" "See you at five." (by simp), ?_, by decide +kernel⟩
  refine ⟨trivial, ?_, trivial, trivial, trivial, trivial, trivial, trivial, trivial, trivial, trivial⟩
  rw [Succeeds]
  decide +kernel

end Crew

end Courier.Outbox
