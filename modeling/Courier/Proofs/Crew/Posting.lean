import Courier.Proofs.Crew.Rounds
import Courier.Proofs.Message.Bot
import Mathlib.Data.List.Forall2
import Mathlib.Data.List.TakeWhile

/-!
# What is posted for a message that waits

Sweeps send a message to one recipient after another, and stop at the first that does not resolve. What
they post for it together, one sweep after the other, are the posts to the recipients before that one.
The messenger that sends a message at once resolves all recipients first, so it posts the same if all
of them resolve, and nothing otherwise.
-/

namespace Courier.Outbox

open Message (Payload)
open Message.Telegram

/-! ## Posts of a single sweep -/

/-- The posts to one recipient after another. -/
def postsEach (title body : String) (recipients : List String) : List Post :=
  recipients.flatMap fun x => postsOf ⟨.text title, .text body, [x]⟩

/-- The recipients that come next: those that are not noted, up to the first that does not resolve. -/
def upNext (recipients delivered : List String) : List String :=
  (recipients.filter fun x => !delivered.contains x).takeWhile resolves

section ended
variable {p : Pending} {reached : List String}

theorem Pending.posts_calls (p : Pending) (ok : Bool) (recipients : List String) :
    (p.calls ok recipients).flatMap (fun call => postsOf call.1) =
      postsEach p.title p.body recipients := by
  rw [Pending.calls, List.flatMap_map, postsEach]

theorem Pending.resolves_of_accepted {ok : Bool} {recipients : List String}
    (h : ∀ call ∈ p.calls ok recipients, call.2 = accepts call.1) :
    ∀ x ∈ recipients, resolves x = ok := by
  intro x hx
  have hcall := h _ (List.mem_map_of_mem hx)
  rw [accepts_single] at hcall
  exact hcall.symm

/-- Once the recipients before it are noted, one that does not resolve comes next. -/
theorem upNext_of_interrupted {recipients delivered rest : List String} {x : String}
    (htodo : recipients.filter (fun x => !delivered.contains x) = reached ++ x :: rest)
    (hreached : ∀ y ∈ reached, resolves y = true) (hx : resolves x = false) :
    upNext recipients (delivered ++ reached.eraseDups) = [] := by
  have hnoted : recipients.filter (fun y => !(delivered ++ reached.eraseDups).contains y) =
      (recipients.filter fun y => !delivered.contains y).filter fun y => !reached.contains y := by
    rw [List.filter_filter]
    refine List.filter_congr fun y _ => ?_
    by_cases hd : y ∈ delivered <;> by_cases hr : y ∈ reached <;> simp [hd, hr]
  have hnot : x ∉ reached := by
    intro hmem
    rw [hreached x hmem] at hx
    cases hx
  have hnone : reached.filter (fun y => !reached.contains y) = [] := by simp
  rw [upNext, hnoted, htodo, List.filter_append, hnone, List.nil_append,
    List.filter_cons_of_pos (by simpa using hnot), List.takeWhile_cons_of_neg (by simp [hx])]

/-- A sweep posts to those that come next, and leaves nobody to come next. -/
theorem Pending.Ended.posts {o : Option Row} {made : List (Payload × Bool)} (h : p.Ended o made)
    (hmade : ∀ call ∈ made, call.2 = accepts call.1) :
    made.flatMap (fun call => postsOf call.1) =
        postsEach p.title p.body (upNext p.recipients p.delivered) ∧
      ∀ r, o = some r → ∃ delivered, r.Notes delivered ∧ upNext p.recipients delivered = [] := by
  cases h with
  | delivered =>
    have hall := resolves_of_accepted hmade
    refine ⟨?_, fun r hr => by cases hr⟩
    rw [p.posts_calls, upNext]
    exact congrArg _ (List.takeWhile_eq_self_iff.mpr hall).symm
  | @interrupted r reached rest x htodo hr =>
    have hreached := resolves_of_accepted fun call hcall => hmade call (List.mem_append_left _ hcall)
    have hx : resolves x = false :=
      resolves_of_accepted (fun call hcall => hmade call (List.mem_append_right _ hcall)) x (by simp)
    have hnext : upNext p.recipients p.delivered = reached := by
      rw [upNext]
      refine (congrArg _ htodo).trans ?_
      rw [List.takeWhile_append_of_pos hreached, List.takeWhile_cons_of_neg (by simp [hx]),
        List.append_nil]
    constructor
    · rw [List.flatMap_append, p.posts_calls, p.posts_calls, hnext]
      have hnone : postsEach p.title p.body [x] = [] := by
        rw [postsEach, List.flatMap_singleton]
        exact postsOf_unresolved _ _ ⟨x, by simp, hx⟩
      rw [hnone, List.append_nil]
    · rintro r' ⟨⟩
      exact ⟨_, hr, upNext_of_interrupted htodo hreached hx⟩

end ended

/-! ## Posts of all sweeps -/

/-- The row waits to be sent: it is free, and notes who was reached before. -/
structure Row.Waits (title body : String) (recipients delivered : List String) (r : Row) : Prop where
  carries : r.Carries title body recipients
  notes : r.Notes delivered
  free : r.claimedAt = none

theorem Row.Carries.pending {title body : String} {recipients delivered : List String} {r : Row}
    (h : r.Carries title body recipients) (hd : r.Notes delivered) {p : Pending}
    (hp : r.pending = .ok p) :
    p.title = title ∧ p.body = body ∧ p.recipients = recipients ∧ p.delivered = delivered := by
  obtain ⟨-, htitle, hbody, -, hrecipients, hnotes⟩ := Row.pending_ok hp
  have hrecipients' := hrecipients.symm.trans h.recipients
  have hnotes' := hnotes.symm.trans hd
  cases hrecipients'
  cases hnotes'
  exact ⟨htitle.trans h.title, hbody.trans h.body, rfl, rfl⟩

theorem Row.Holds.waits {r : Row} {draft : Draft} {t : Calendar.Instant} {title body : String}
    {recipients : List String} (h : r.Holds draft t (recipients.map Value.text))
    (htitle : draft.title = .text title) (hbody : draft.body = .text body) :
    r.Waits title body recipients [] :=
  ⟨⟨h.title title htitle, h.body body hbody, h.reads_recipients⟩, h.notes, h.free⟩

/-- A message of texts waits once it is stored. -/
theorem Store.create_waits {s s' : Store} {now : Calendar.Instant} {draft : Draft} {id : Int}
    {title body : String} {recipients : List String} (h : create now draft s = .ok (id, s'))
    (htitle : draft.title = .text title) (hbody : draft.body = .text body)
    (hrecipients : draft.recipients = .list (recipients.map Value.text)) :
    ∃ row, s' = s.insertLast row ∧ row.id = id ∧ id = s.lastId + 1 ∧
      row.Waits title body recipients [] := by
  obtain ⟨_, items, row, -, hitems, hrow, hs', hid, hnew, -⟩ := create_row h
  rw [hrecipients] at hitems
  cases hitems
  exact ⟨row, hs', hid, hnew, hrow.waits htitle hbody⟩

namespace Crew

/-- In each of the rounds a sweep lists the message and returns, one after the other. -/
def WorksAll (c : Crew) (id : Int) : List Round → Prop
  | [] => True
  | round :: rounds => c.Works id round ∧ (c.after round.turns).WorksAll id rounds

section rounds
variable {c : Crew} {id : Int} {title body : String} {recipients : List String}

/-- A message that is gone is not listed again. -/
theorem Works.present {round : Round} (h : c.Works id round) (hc : c.store.WellNumbered)
    (hknown : id ≤ c.store.lastId) : ∃ r, c.store.find? id = some r := by
  apply Option.ne_none_iff_exists'.mp
  intro hgone
  obtain ⟨p, hp, rfl⟩ := List.mem_map.mp h.listed
  obtain ⟨r, hr, -⟩ :=
    (Sweep.list_due (wellNumbered_after hc round.pause) round.policy round.now).2 p hp
  cases (absent_after hc hknown hgone round.pause).symm.trans hr

/-- A sweep posts to those that come next; if the message still waits, nobody comes next. -/
theorem Works.posts {round : Round} (h : c.Works id round) (hc : c.store.WellNumbered) {r : Row}
    (hr : c.store.find? id = some r) {delivered : List String}
    (hwaits : r.Waits title body recipients delivered)
    (hcalls : ∀ call ∈ c.calls round.turns id, call.2 = accepts call.1) :
    (c.calls round.turns id).flatMap (fun call => postsOf call.1) =
        postsEach title body (upNext recipients delivered) ∧
      ∀ r', (c.after round.turns).store.find? id = some r' →
        ∃ delivered', r'.Waits title body recipients delivered' ∧
          upNext recipients delivered' = [] := by
  obtain ⟨p, hp, hended, hfreed⟩ := h.ended hc hr hwaits.free
  obtain ⟨rfl, rfl, rfl, rfl⟩ := hwaits.carries.pending hwaits.notes hp
  obtain ⟨hposts, hleft⟩ := hended.posts hcalls
  refine ⟨hposts, fun r' hr' => ?_⟩
  obtain ⟨delivered', hnotes', hnone⟩ := hleft r' hr'
  have hcarries : r'.Carries p.title p.body p.recipients := by
    refine carries_after hc (Store.le_lastId_of_find? hc hr) (fun r₀ hr₀ => ?_) round.turns r' hr'
    cases hr.symm.trans hr₀
    exact hwaits.carries
  exact ⟨delivered', ⟨hcarries, hnotes', hfreed r' hr'⟩, hnone⟩

/-- The first sweep posts to those that come next, and the others post nothing. -/
theorem WorksAll.posts {rounds : List Round} (h : c.WorksAll id rounds) (hne : rounds ≠ [])
    (hc : c.store.WellNumbered) {r : Row} (hr : c.store.find? id = some r)
    {delivered : List String} (hwaits : r.Waits title body recipients delivered)
    (hcalls : ∀ call ∈ c.calls (rounds.flatMap Round.turns) id, call.2 = accepts call.1) :
    (c.calls (rounds.flatMap Round.turns) id).flatMap (fun call => postsOf call.1) =
      postsEach title body (upNext recipients delivered) := by
  induction rounds generalizing c r delivered with
  | nil => exact absurd rfl hne
  | cons round rounds ih =>
    obtain ⟨hworks, hrest⟩ := h
    rw [List.flatMap_cons, calls_append] at hcalls ⊢
    obtain ⟨hposts, hleft⟩ :=
      hworks.posts hc hr hwaits fun call hcall => hcalls call (List.mem_append_left _ hcall)
    rw [List.flatMap_append, hposts]
    have hlater : ((c.after round.turns).calls (rounds.flatMap Round.turns) id).flatMap
        (fun call => postsOf call.1) = [] := by
      cases rounds with
      | nil => rfl
      | cons next rounds =>
        have hc₁ := wellNumbered_after hc round.turns
        have hknown := Store.le_lastId_of_find? hc hr
        obtain ⟨r', hr'⟩ := hrest.1.present hc₁
          (Int.le_trans hknown (lastId_le_after hc round.turns))
        obtain ⟨delivered', hwaits', hnone⟩ := hleft r' hr'
        rw [ih hrest (by simp) hc₁ hr' hwaits' fun call hcall =>
          hcalls call (List.mem_append_right _ hcall), hnone]
        rfl
    rw [hlater, List.append_nil]

theorem waits_dispatch (hc : c.store.WellNumbered) {delay automationId : Value} {d : Desk}
    (hplan : Script.Dispatch.plan ⟨.text title, .text body, recipients⟩ delay automationId c.desk =
      .store (.pending id) d) :
    ∃ r, (c.turn (.dispatch ⟨.text title, .text body, recipients⟩ delay automationId)).store.find?
      id = some r ∧ r.Waits title body recipients [] := by
  obtain ⟨draft, id', -, htitle, hbody, hrecipients, hid, hcreate⟩ := plan_draft hplan
  cases hid
  obtain ⟨row, hst, rfl, hnew, hwaits⟩ := Store.create_waits hcreate htitle hbody hrecipients
  refine ⟨row, ?_, hwaits⟩
  rw [turn, dispatch, hplan]
  change d.store.find? row.id = some row
  have hlast : c.store.lastId < row.id := by
    change row.id = c.store.lastId + 1 at hnew
    omega
  rw [hst]
  exact (Store.find?_insertLast hc hlast row.id).trans (if_pos rfl)

/-- The calls of the messenger for a message, with their answers. -/
def callsFor (c : Crew) (ts : List Turn) (id : Int) : List Call :=
  (c.along call? ts).filter fun call => call.id == id

theorem posted_eq {calls : List Call} {posted : List (List Post)}
    (h : List.Forall₂ (fun call sent => Conveys call.payload sent call.answer) calls posted) :
    posted.flatten = calls.flatMap (fun call => postsOf call.payload) ∧
      ∀ call ∈ calls, call.answer.isOk = accepts call.payload := by
  induction h with
  | nil => exact ⟨rfl, fun _ h => absurd h List.not_mem_nil⟩
  | cons hcall _ ih =>
    obtain ⟨hsent, hanswer⟩ := hcall.spec
    obtain ⟨hposted, hanswers⟩ := ih
    refine ⟨by rw [List.flatten_cons, List.flatMap_cons, hsent, hposted], ?_⟩
    intro call hmem
    rcases List.mem_cons.mp hmem with rfl | hmem
    · exact hanswer
    · exact hanswers call hmem

/-- What sweeps post for a message that was dispatched with a delay, over a bot that never fails, are
the posts to the recipients before the first that does not resolve. Without a delay a dispatch of the
message posts the same if all recipients resolve, and nothing otherwise. -/
theorem delayed_posts (c : Crew) (hc : c.IsFresh) (before : List Turn) (title body : String)
    (recipients : List String) (delay automationId : Value) (id : Int) (d : Desk)
    (hplan : Script.Dispatch.plan ⟨.text title, .text body, recipients⟩ delay automationId
      (c.after before).desk = .store (.pending id) d)
    (c₁ : Crew) (hc₁ : c₁ = c.after (before ++
      [.dispatch ⟨.text title, .text body, recipients⟩ delay automationId]))
    (rounds : List Round) (hne : rounds ≠ []) (hworks : c₁.WorksAll id rounds)
    (posted : List (List Post))
    (hposted : List.Forall₂ (fun call sent => Conveys call.payload sent call.answer)
      (c₁.callsFor (rounds.flatMap Round.turns) id) posted) :
    posted.flatten = postsOf ⟨.text title, .text body, recipients.takeWhile resolves⟩ ∧
      ∀ (delay₀ : Value) (d₀ : Desk) (sent : List Post), Script.Dispatch.minutes delay₀ = .ok none →
        ((Script.Dispatch.send ⟨.text title, .text body, recipients⟩ delay₀ automationId).Sends d₀
            sent ↔
          sent = if recipients.all resolves then posted.flatten else []) := by
  have hc' := wellNumbered_after hc.wellNumbered before
  obtain ⟨r, hr, hwaits⟩ := waits_dispatch hc' hplan
  rw [after_append, after_cons, after_nil] at hc₁
  rw [← hc₁] at hr
  obtain ⟨hsent, hanswers⟩ := posted_eq hposted
  have hposts : posted.flatten = postsEach title body (recipients.takeWhile resolves) := by
    have hcalls : ∀ call ∈ c₁.calls (rounds.flatMap Round.turns) id, call.2 = accepts call.1 := by
      intro call hcall
      obtain ⟨call', hcall', rfl⟩ := List.mem_map.mp hcall
      exact hanswers call' hcall'
    have hall := hworks.posts hne (hc₁ ▸ (turn_step hc' _).wellNumbered hc') hr hwaits hcalls
    have hstart : upNext recipients [] = recipients.takeWhile resolves := by simp [upNext]
    rw [calls, List.flatMap_map, hstart] at hall
    exact hsent.trans hall
  have hresolved : ∀ x ∈ recipients.takeWhile resolves, resolves x = true := by
    intro x hx
    exact List.all_eq_true.mp List.all_takeWhile x hx
  refine ⟨hposts.trans (postsOf_resolved title body hresolved).symm, ?_⟩
  intro delay₀ d₀ sent hdelay
  rw [Script.Dispatch.sends_at_once (plan_stored hplan).1 hdelay]
  cases hvalid : recipients.all resolves with
  | true =>
    have hall : ∀ x ∈ recipients, resolves x = true := List.all_eq_true.mp hvalid
    rw [if_pos rfl, hposts, List.takeWhile_eq_self_iff.mpr hall, postsOf_resolved title body hall]
    rfl
  | false =>
    have hbad : ∃ x ∈ recipients, resolves x = false := by simpa using hvalid
    rw [postsOf_unresolved title body hbad]
    simp

end rounds

/-! ## Sweeps over a bot that never fails -/

/-- The next turn of a sweep, if a bot that never fails sends its messages. -/
def steadyTurn (c : Crew) (i : Nat) : Turn :=
  match (c.sweeps[i]?).bind Sweep.request? with
  | some payload => .answer i (answerTo payload)
  | none => .advance i

def steadyTurns (c : Crew) (i : Nat) : Nat → List Turn
  | 0 => []
  | n + 1 => c.steadyTurn i :: (c.turn (c.steadyTurn i)).steadyTurns i n

/-- A round in which so many turns are made of a sweep over such a bot. -/
def steadyRound (c : Crew) (pause : List Turn) (policy : Policy) (now : Calendar.Moment) (n : Nat) :
    Round where
  pause := pause
  policy := policy
  now := now
  work := ((c.after pause).turn (.join policy now)).steadyTurns (c.after pause).sweeps.length n

section steady
variable {c : Crew} {i n : Nat}

theorem alone_steadyTurns : ∀ t ∈ c.steadyTurns i n, t.Alone i := by
  induction n generalizing c with
  | zero => exact fun t ht => absurd ht List.not_mem_nil
  | succ n ih =>
    intro t ht
    rcases List.mem_cons.mp ht with rfl | ht
    · unfold steadyTurn
      split
      · exact ⟨fun j hj => (Option.some.inj hj).symm, rfl⟩
      · exact ⟨fun j hj => (Option.some.inj hj).symm, rfl⟩
    · exact ih t ht

theorem conveys_steadyTurns :
    ∀ call ∈ c.along call? (c.steadyTurns i n),
      Conveys call.payload (postsOf call.payload) call.answer := by
  induction n generalizing c with
  | zero => exact fun call hcall => absurd hcall List.not_mem_nil
  | succ n ih =>
    intro call hcall
    rcases List.mem_append.mp hcall with hcall | hcall
    · have hcall := Option.mem_toList.mp hcall
      obtain ⟨hturn, s, p, recipient, rest, receipts, hs, hact, -, hpayload⟩ := call?_eq_some hcall
      have hrequest : s.request? = some call.payload := by rw [Sweep.request?, hact, hpayload]
      unfold steadyTurn at hturn
      split at hturn
      · rename_i payload hpending
        obtain ⟨rfl, hanswer⟩ := Turn.answer.inj hturn
        rw [hs, Option.bind_some, hrequest] at hpending
        cases hpending
        exact hanswer ▸ conveys_answerTo call.payload
      · cases hturn
    · exact ih call hcall

theorem conveys_steadyRound {pause : List Turn} {policy : Policy} {now : Calendar.Moment} {id : Int}
    (hpause : ∀ t ∈ pause, t.Idle) :
    List.Forall₂ (fun call sent => Conveys call.payload sent call.answer)
      (c.callsFor (c.steadyRound pause policy now n).turns id)
      ((c.callsFor (c.steadyRound pause policy now n).turns id).map fun call =>
        postsOf call.payload) := by
  rw [List.forall₂_map_right_iff, List.forall₂_same]
  intro call hcall
  have hcall := (List.mem_filter.mp hcall).1
  rw [Round.turns, along_append] at hcall
  rcases List.mem_append.mp hcall with hcall | hcall
  · obtain ⟨us, t, vs, hturns, hcall⟩ := mem_along hcall
    have hmem : t ∈ pause := by
      change pause = us ++ t :: vs at hturns
      simp [hturns]
    have hidle := (hpause t hmem).sweep
    rw [(call?_eq_some hcall).1] at hidle
    cases hidle
  · exact conveys_steadyTurns call hcall

end steady

/-! ## A message that is sent twice, and one that is sent in part -/

/-- The number of the message that a dispatch stores. -/
def storedId? : Script.Dispatch.Plan → Option Int
  | .store (.pending id) _ => some id
  | _ => none

theorem plan_of_storedId? {plan : Script.Dispatch.Plan} {id : Int} (h : storedId? plan = some id) :
    ∃ d, plan = .store (.pending id) d := by
  unfold storedId? at h
  split at h
  · cases h
    exact ⟨_, rfl⟩
  · cases h

def letter (recipients : List String) : Payload :=
  ⟨.text "Hello", .text "See you at five.", recipients⟩

/-- The letter is to be sent after five minutes. -/
def mailed (recipients : List String) : Crew :=
  (idle noon).after ([] ++ [.dispatch (letter recipients) (.int 5) .null])

/-- A sweep begins at one and delivers the letter. -/
def roundAtOne (recipients : List String) : Round :=
  (mailed recipients).steadyRound [.setClock oneOClock] thrice (.ofInstant oneOClock) 8

theorem works_roundAtOne {recipients : List String}
    (hlisted : 1 ∈ (Sweep.list thrice (.ofInstant oneOClock)
      ((mailed recipients).after [.setClock oneOClock]).desk).due.map (·.id))
    (hreturns : (((mailed recipients).after (roundAtOne recipients).turns).sweeps[
      ((mailed recipients).after [.setClock oneOClock]).sweeps.length]?.map Sweep.hasReturned) =
        some true) : (mailed recipients).WorksAll 1 [roundAtOne recipients] := by
  have hidle : ∀ t ∈ (roundAtOne recipients).pause, t.Idle := by
    intro t ht
    rw [List.mem_singleton.mp ht]
    exact ⟨rfl, rfl⟩
  exact ⟨⟨hidle, alone_steadyTurns, hlisted, Option.map_eq_some_iff.mp hreturns⟩, trivial⟩

theorem conveys_roundAtOne (recipients : List String) :
    List.Forall₂ (fun call sent => Conveys call.payload sent call.answer)
      ((mailed recipients).callsFor ([roundAtOne recipients].flatMap Round.turns) 1)
      (((mailed recipients).callsFor ([roundAtOne recipients].flatMap Round.turns) 1).map fun call =>
        postsOf call.payload) := by
  rw [List.flatMap_singleton]
  apply conveys_steadyRound
  intro t ht
  rw [List.mem_singleton.mp ht]
  exact ⟨rfl, rfl⟩

/-- The chat comes twice among the recipients, and the letter is sent to it twice on either way. -/
theorem delayed_posts_twice :
    ∃ sent : List (List Post),
      sent.flatten = [⟨.number 42, "<b>Hello</b>\nSee you at five."⟩,
        ⟨.number 42, "<b>Hello</b>\nSee you at five."⟩] ∧
      ∀ (delay₀ : Value) (d₀ : Desk) (sent₀ : List Post), Script.Dispatch.minutes delay₀ = .ok none →
        ((Script.Dispatch.send (letter ["42", "42"]) delay₀ .null).Sends d₀ sent₀ ↔
          sent₀ = sent.flatten) := by
  have hstored : storedId? (Script.Dispatch.plan (letter ["42", "42"]) (.int 5) .null
      ((idle noon).after []).desk) = some 1 := by decide +kernel
  have hlisted : 1 ∈ (Sweep.list thrice (.ofInstant oneOClock)
      ((mailed ["42", "42"]).after [.setClock oneOClock]).desk).due.map (·.id) := by
    decide +kernel
  have hreturns : (((mailed ["42", "42"]).after (roundAtOne ["42", "42"]).turns).sweeps[
      ((mailed ["42", "42"]).after [.setClock oneOClock]).sweeps.length]?.map Sweep.hasReturned) =
        some true := by
    decide +kernel
  have hvalid : ["42", "42"].all resolves = true := by decide +kernel
  obtain ⟨d, hplan⟩ := plan_of_storedId? hstored
  obtain ⟨hsent, hsame⟩ := delayed_posts (idle noon) (isFresh_idle noon) [] "Hello"
    "See you at five." ["42", "42"] (.int 5) .null 1 d hplan (mailed ["42", "42"]) rfl
    [roundAtOne ["42", "42"]] (by simp) (works_roundAtOne hlisted hreturns) _
    (conveys_roundAtOne ["42", "42"])
  rw [hvalid, if_pos rfl] at hsame
  refine ⟨_, hsent.trans ?_, hsame⟩
  decide +kernel

/-- A sweep sends the letter to the first recipient, though the second one is no chat; without a delay
it is not sent at all. -/
theorem letter_is_sent_in_part :
    (∃ d, Script.Dispatch.plan (letter ["42", "not a chat!"]) (.int 5) .null (idle noon).desk =
        .store (.pending 1) d) ∧
      (mailed ["42", "not a chat!"]).WorksAll 1 [roundAtOne ["42", "not a chat!"]] ∧
      (∃ sent : List (List Post), List.Forall₂
          (fun call sent => Conveys call.payload sent call.answer)
          ((mailed ["42", "not a chat!"]).callsFor
            ([roundAtOne ["42", "not a chat!"]].flatMap Round.turns) 1) sent ∧
        sent.flatten = [⟨.number 42, "<b>Hello</b>\nSee you at five."⟩]) ∧
      ∀ d₀ sent₀, (Script.Dispatch.send (letter ["42", "not a chat!"]) .null .null).Sends d₀ sent₀ →
        sent₀ = [] := by
  have hstored : storedId? (Script.Dispatch.plan (letter ["42", "not a chat!"]) (.int 5) .null
      (idle noon).desk) = some 1 := by decide +kernel
  have hlisted : 1 ∈ (Sweep.list thrice (.ofInstant oneOClock)
      ((mailed ["42", "not a chat!"]).after [.setClock oneOClock]).desk).due.map (·.id) := by
    decide +kernel
  have hreturns : (((mailed ["42", "not a chat!"]).after
      (roundAtOne ["42", "not a chat!"]).turns).sweeps[
        ((mailed ["42", "not a chat!"]).after [.setClock oneOClock]).sweeps.length]?.map
          Sweep.hasReturned) = some true := by
    decide +kernel
  refine ⟨plan_of_storedId? hstored, works_roundAtOne hlisted hreturns,
    ⟨_, conveys_roundAtOne ["42", "not a chat!"], by decide +kernel⟩, ?_⟩
  intro d₀ sent₀ hsends
  rw [Script.Dispatch.sends_at_once rfl rfl] at hsends
  rw [hsends]
  exact postsOf_unresolved _ _ ⟨"not a chat!", by simp, by decide +kernel⟩

end Crew

end Courier.Outbox
