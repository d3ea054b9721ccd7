import Courier.Proofs.Crew.Resumption
import Courier.Proofs.Outbox.Interruptions
import Mathlib.Data.List.Induction

/-!
# What a sweep leaves behind

While a sweep is the only one that acts, it ends without a claim of its own, however it ends. If the
messenger cancels one of its calls, the messages before that one are done with and those after it were
not touched; that one is handed back as it was, up to the recipients that were reached, or was released
already if the call was to tell the operator of its failure.
-/

namespace Courier.Outbox

open Message (Payload)

/-- The sweep is the only one that acts, and nobody else acts on the store. -/
def Turn.Only (i : Nat) : Turn → Prop
  | setClock _ => True
  | t => t.sweep? = some i

theorem Turn.Only.alone {i : Nat} {t : Turn} (h : t.Only i) : t.Alone i := by
  cases t with
  | advance j | answer j answer =>
    have hj : j = i := Option.some.inj h
    refine ⟨fun k hk => ?_, rfl⟩
    cases hk
    exact hj
  | setClock now =>
    refine ⟨fun k hk => ?_, rfl⟩
    cases hk
  | _ => cases h

/-- A cancellation ended the sweep. -/
def Sweep.isCancelled (s : Sweep) : Bool :=
  match s.activity with
  | .ended (some f) => f.isCancellation
  | _ => false

theorem Sweep.ended_of_isCancelled {s : Sweep} (h : s.isCancelled = true) :
    ∃ f, s.activity = .ended (some f) ∧ f.isCancellation = true := by
  unfold isCancelled at h
  split at h
  · rename_i f hact
    exact ⟨f, hact, h⟩
  · cases h

namespace Crew

/-- A call of the messenger that tells the operator of a message, and its answer. -/
def alert? (c : Crew) : Turn → Option Call
  | .answer i answer =>
    match c.sweeps[i]? with
    | some s =>
      match s.activity, s.request? with
      | .alerting p _ _, some payload => some ⟨i, p.id, payload, answer⟩
      | _, _ => none
    | none => none
  | _ => none

/-! ## Turns of the only sweep -/

section only
variable {c : Crew} {i : Nat} {s : Sweep} {t : Turn}

theorem only_cases (hs : c.sweeps[i]? = some s) (ht : t.Only i) :
    ((∃ now, t = .setClock now) ∧ (c.turn t).store = c.store ∧
        (c.turn t).sweeps[i]? = some s) ∨
      (t = .advance i ∧ (c.turn t).store = (s.advance c.desk).1.store ∧
        (c.turn t).sweeps[i]? = some (s.advance c.desk).2) ∨
      ∃ answer, t = .answer i answer ∧ (c.turn t).store = c.store ∧
        (c.turn t).sweeps[i]? = some (s.answered answer c.desk).2 := by
  have hi := (List.getElem?_eq_some_iff.mp hs).1
  cases t with
  | setClock now => exact Or.inl ⟨⟨now, rfl⟩, rfl, hs⟩
  | advance j =>
    obtain rfl : j = i := Option.some.inj ht
    rw [turn_advance hs]
    exact Or.inr (Or.inl ⟨rfl, rfl, List.getElem?_set_self hi⟩)
  | answer j answer =>
    obtain rfl : j = i := Option.some.inj ht
    rw [turn_answer hs]
    refine Or.inr (Or.inr ⟨answer, rfl, ?_, List.getElem?_set_self hi⟩)
    exact Sweep.answered_store answer s c.desk
  | _ => cases ht

theorem ended_turn {f : Option Failure} (hs : c.sweeps[i]? = some s)
    (hact : s.activity = .ended f) (ht : t.Only i) :
    (c.turn t).store = c.store ∧ (c.turn t).sweeps[i]? = some s := by
  rcases only_cases hs ht with ⟨-, hstore, hs'⟩ | ⟨-, hstore, hs'⟩ | ⟨answer, -, hstore, hs'⟩
  · exact ⟨hstore, hs'⟩
  · have hwaits : s.advance c.desk = (c.desk, s) := by rw [Sweep.advance, hact]
    rw [hwaits] at hstore hs'
    exact ⟨hstore, hs'⟩
  · have hignores : s.answered answer c.desk = (c.desk, s) := by simp [Sweep.answered, hact]
    rw [hignores] at hs'
    exact ⟨hstore, hs'⟩

theorem ended_after {f : Option Failure} (hs : c.sweeps[i]? = some s)
    (hact : s.activity = .ended f) {ts : List Turn} (hts : ∀ t ∈ ts, t.Only i) :
    (c.after ts).store = c.store ∧ (c.after ts).sweeps[i]? = some s := by
  induction ts generalizing c with
  | nil => exact ⟨rfl, hs⟩
  | cons t ts ih =>
    obtain ⟨hstore, hs'⟩ := ended_turn hs hact (hts t List.mem_cons_self)
    obtain ⟨hstore', hs''⟩ := ih hs' fun u hu => hts u (List.mem_cons_of_mem _ hu)
    exact ⟨hstore'.trans hstore, hs''⟩

end only

/-! ## The way to the end -/

/-- The sweep is not over. -/
def IsLive (c : Crew) (i : Nat) : Prop :=
  ∃ s, c.sweeps[i]? = some s ∧ ∀ f, s.activity ≠ .ended f

/-- A sweep on its way through its list. -/
structure OnCourse (c : Crew) (i : Nat) (policy : Policy) (st₀ : Store) (listed : List Pending) :
    Prop where
  wellNumbered : c.store.WellNumbered
  course : ∃ s, c.sweeps[i]? = some s ∧ s.policy = policy ∧ (∀ f, s.activity ≠ .ended f) ∧
    s.Course st₀ listed c.store

section course
variable {c : Crew} {i : Nat} {policy : Policy} {st₀ : Store} {listed : List Pending}
  (hnodup : (listed.map (·.id)).Nodup) (hrows : ∀ q ∈ listed, st₀.find? q.id ≠ none)
include hnodup hrows

theorem OnCourse.turn (h : c.OnCourse i policy st₀ listed) {t : Turn} (ht : t.Only i)
    (hlive : (c.turn t).IsLive i) : (c.turn t).OnCourse i policy st₀ listed := by
  have hc := h.wellNumbered
  refine ⟨(turn_step hc t).wellNumbered hc, ?_⟩
  obtain ⟨s, hs, hpolicy, hlive₀, hcourse⟩ := h.course
  obtain ⟨s', hs', hlive'⟩ := hlive
  refine ⟨s', hs', ?_⟩
  rcases only_cases hs ht with ⟨-, hstore, hnext⟩ | ⟨-, hstore, hnext⟩ | ⟨answer, -, hstore, hnext⟩
  · cases hs'.symm.trans hnext
    exact ⟨hpolicy, hlive', hstore ▸ hcourse⟩
  · cases hs'.symm.trans hnext
    refine ⟨(Sweep.advance_step hc).policy_eq.trans hpolicy, hlive', ?_⟩
    exact hstore ▸ hcourse.advance hc hnodup hrows hlive'
  · cases hs'.symm.trans hnext
    refine ⟨(Sweep.answered_policy answer s c.desk).trans hpolicy, hlive', ?_⟩
    exact hstore ▸ hcourse.answered hnodup answer hlive'

theorem OnCourse.after (h : c.OnCourse i policy st₀ listed) {ts : List Turn}
    (hts : ∀ t ∈ ts, t.Only i) (hlive : (c.after ts).IsLive i) :
    (c.after ts).OnCourse i policy st₀ listed := by
  induction ts generalizing c with
  | nil => exact h
  | cons t ts ih =>
    have hts' : ∀ u ∈ ts, u.Only i := fun u hu => hts u (List.mem_cons_of_mem _ hu)
    refine ih (h.turn hnodup hrows (hts t List.mem_cons_self) ?_) hts' hlive
    -- A sweep that is over stays so, and this one is not over in the end.
    obtain ⟨s, hs, -⟩ := h.course
    obtain ⟨s', hs', -⟩ := (turn_step h.wellNumbered t).sweepTurn hs
    refine ⟨s', hs', fun f hact => ?_⟩
    obtain ⟨s'', hs'', hlive''⟩ := hlive
    rw [after_cons, (ended_after hs' hact hts').2] at hs''
    cases hs''
    exact hlive'' f hact

/-- The turn in which a sweep ends, with what it was before and after it. -/
theorem OnCourse.exists_last (h : c.OnCourse i policy st₀ listed) {ts : List Turn}
    (hts : ∀ t ∈ ts, t.Only i) {s : Sweep} {f : Option Failure}
    (hs : (c.after ts).sweeps[i]? = some s) (hact : s.activity = .ended f) :
    ∃ us t vs s₁ s₂, ts = us ++ t :: vs ∧ (c.after us).store.WellNumbered ∧
      (c.after us).sweeps[i]? = some s₁ ∧ s₁.policy = policy ∧ (∀ g, s₁.activity ≠ .ended g) ∧
      s₁.Course st₀ listed (c.after us).store ∧
      ((c.after us).turn t).sweeps[i]? = some s₂ ∧ s₂.activity = .ended f ∧
      (c.after ts).store = ((c.after us).turn t).store := by
  have hstart : c.IsLive i := by
    obtain ⟨s, hs, -, hlive, -⟩ := h.course
    exact ⟨s, hs, hlive⟩
  have hover : ¬ (c.after ts).IsLive i := by
    rintro ⟨s', hs', hlive⟩
    rw [hs] at hs'
    cases hs'
    exact hlive f hact
  obtain ⟨us, t, vs, rfl, hbefore, hafter⟩ :=
    exists_turn_of_change (P := fun c => c.IsLive i) hstart hover
  have hus := h.after hnodup hrows (fun u hu => hts u (by simp [hu])) hbefore
  obtain ⟨s₁, hs₁, hpolicy, hlive, hcourse⟩ := hus.course
  obtain ⟨s₂, hs₂, -⟩ := (turn_step hus.wellNumbered t).sweepTurn hs₁
  -- What the sweep is after its last turn it stays.
  have hended : ∃ g, s₂.activity = .ended g := by
    apply Classical.byContradiction
    intro hnone
    exact hafter ⟨s₂, hs₂, fun g hg => hnone ⟨g, hg⟩⟩
  obtain ⟨g, hg⟩ := hended
  obtain ⟨hstore, hs'⟩ := ended_after hs₂ hg (fun u hu => hts u (by simp [hu]) : ∀ u ∈ vs, u.Only i)
  rw [after_append, after_cons] at hs ⊢
  rw [hs'] at hs
  cases hs
  exact ⟨us, t, vs, s₁, s, rfl, hus.wellNumbered, hs₁, hpolicy, hlive, hcourse, hs₂, hact, hstore⟩

/-- The turn in which a sweep ends, with what it leaves. -/
theorem OnCourse.exists_end (h : c.OnCourse i policy st₀ listed) {ts : List Turn}
    (hts : ∀ t ∈ ts, t.Only i) {s : Sweep} {f : Option Failure}
    (hs : (c.after ts).sweeps[i]? = some s) (hact : s.activity = .ended f) :
    ∃ us t vs s₁, ts = us ++ t :: vs ∧ (c.after us).sweeps[i]? = some s₁ ∧ s₁.policy = policy ∧
      s₁.End st₀ listed (c.after ts).store f ∧
      ∀ p attempts cause, s₁.activity = .alerting p attempts cause →
        ∃ g, f = some g ∧ t = .answer i (.error g) := by
  obtain ⟨us, t, vs, s₁, s₂, rfl, hus, hs₁, hpolicy, hlive, hcourse, hs₂, hend, hfinal⟩ :=
    h.exists_last hnodup hrows hts hs hact
  refine ⟨us, t, vs, s₁, rfl, hs₁, hpolicy, ?_⟩
  rcases only_cases hs₁ (hts t (by simp)) with ⟨-, -, hs'⟩ | ⟨-, hstore, hs'⟩ |
    ⟨answer, hturn, hstore, hs'⟩
  · cases hs₂.symm.trans hs'
    exact absurd hend (hlive f)
  · cases hs₂.symm.trans hs'
    rw [hfinal, hstore]
    refine ⟨hcourse.end_of_advance hus hnodup hlive hend, ?_⟩
    intro p attempts cause halerting
    rw [Sweep.advance, halerting] at hend
    exact absurd hend (hlive f)
  · cases hs₂.symm.trans hs'
    obtain ⟨p, attempts, cause, g, halerting, rfl, rfl⟩ := Sweep.alerting_of_ended hlive hend
    rw [hfinal, hstore]
    exact ⟨hcourse.end_of_answered halerting g, fun _ _ _ _ => ⟨g, rfl, hturn⟩⟩

end course

/-! ## What led to the end -/

section history
variable {c : Crew} {i : Nat} {ts : List Turn} {s : Sweep}

theorem claim_of_holding (hc : c.store.WellNumbered) (hnone : c.sweeps[i]? = none) {id : Int}
    (hs : (c.after ts).sweeps[i]? = some s) (hholding : s.activity.holding? = some id) :
    (i, id) ∈ c.along claim? ts := by
  induction ts using List.reverseRecOn generalizing s with
  | nil =>
    rw [after_nil, hnone] at hs
    cases hs
  | append_singleton ts t ih =>
    rw [along_append, along_singleton, List.mem_append]
    rw [after_append] at hs
    cases (turn_step (wellNumbered_after hc ts) t).sweep hs with
    | kept hs => exact Or.inl (ih hs hholding)
    | joined policy now _ _ hlist =>
      rw [hlist, Sweep.list_holding] at hholding
      cases hholding
    | advanced ht hs hstep =>
      rcases hstep.holding hholding with hclaims | ⟨hholding, -⟩
      · right
        exact Option.mem_toList.mpr (seeAdvance_eq_some.mpr ⟨ht, _, hs, hclaims⟩)
      · exact Or.inl (ih hs hholding)
    | answered answer _ hs hs' =>
      rw [hs'] at hholding
      exact Or.inl (ih hs (Sweep.answered_holding hholding))

/-- A sweep hands a message back because a call to deliver it failed. -/
theorem call_of_returning (hc : c.store.WellNumbered) (hnone : c.sweeps[i]? = none) {p : Pending}
    {f : Failure} (hs : (c.after ts).sweeps[i]? = some s) (hact : s.activity = .returning p f) :
    ∃ call ∈ c.along call? ts, call.sweep = i ∧ call.id = p.id ∧ call.answer = .error f := by
  induction ts using List.reverseRecOn generalizing s with
  | nil =>
    rw [after_nil, hnone] at hs
    cases hs
  | append_singleton ts t ih =>
    have hearlier (h : ∃ call ∈ c.along call? ts, call.sweep = i ∧ call.id = p.id ∧
        call.answer = .error f) : ∃ call ∈ c.along call? (ts ++ [t]), call.sweep = i ∧
          call.id = p.id ∧ call.answer = .error f := by
      obtain ⟨call, hcall, h⟩ := h
      rw [along_append]
      exact ⟨call, List.mem_append_left _ hcall, h⟩
    rw [after_append] at hs
    cases (turn_step (wellNumbered_after hc ts) t).sweep hs with
    | kept hs => exact hearlier (ih hs hact)
    | joined policy now _ _ hlist =>
      rw [hlist] at hact
      exact absurd hact (Sweep.list_not_returning policy now p f)
    | advanced _ hs hstep => exact absurd hact (hstep.not_returning p f)
    | @answered s₁ answer ht hs₁ hs' =>
      rw [hs'] at hact
      rcases Sweep.sending_of_returning hact with hact₁ | ⟨recipient, rest, receipts, hact₁, rfl⟩
      · exact hearlier (ih hs₁ hact₁)
      · rw [along_append, along_singleton, ht]
        refine ⟨⟨i, p.id, ⟨.text p.title, .text p.body, [recipient]⟩, .error f⟩, ?_, rfl, rfl, rfl⟩
        simp [call?, hs₁, hact₁, Sweep.request?]

end history

/-! ## The end of a sweep -/

/-- The row of a message that a sweep handed back: it is free and as it was, and notes those that were
reached besides. -/
inductive HandedBack (st₀ st : Store) (id : Int) (made : List (Payload × Bool)) : Prop where
  | intro {r r' : Row} {delivered reached : List String} {recipient : String}
    (hr : st₀.find? id = some r) (hr' : st.find? id = some r') (hlike : r.Resembles r')
    (hfree : r'.claimedAt = none) (hdelivered : r.Notes delivered)
    (hnotes : r'.Notes (delivered ++ reached.eraseDups))
    (hmade : made = reached.map (fun x => (r.messageTo x, true)) ++ [(r.messageTo recipient, false)])

theorem handedBack_of_ended {c : Crew} (hc : c.store.WellNumbered) {policy : Policy}
    {now : Calendar.Moment} {p : Pending} {st : Store} {made : List (Payload × Bool)}
    (hp : p ∈ (Sweep.list policy now c.desk).due) (h : p.Ended (st.find? p.id) made) {r r' : Row}
    (hr : c.store.find? p.id = some r) (hr' : st.find? p.id = some r') (hlike : r.Resembles r')
    (hfree : r'.claimedAt = none) : HandedBack c.store st p.id made := by
  obtain ⟨r₀, hr₀, hpending, -⟩ := (Sweep.list_due hc policy now).2 p hp
  cases hr.symm.trans hr₀
  obtain ⟨-, htitle, hbody, -, -, hdelivered⟩ := Row.pending_ok hpending
  have hcalls (ok : Bool) (xs : List String) :
      p.calls ok xs = xs.map fun x => (r.messageTo x, ok) := by
    simp only [Pending.calls, Row.messageTo, htitle, hbody]
  rw [hr'] at h
  cases h with
  | @interrupted _ reached rest x htodo hnotes =>
    have hmade : p.calls true reached ++ p.calls false [x] =
        reached.map (fun x => (r.messageTo x, true)) ++ [(r.messageTo x, false)] := by
      rw [hcalls, hcalls]
      rfl
    exact .intro hr hr' hlike hfree hdelivered hnotes hmade

/-- What is seen in a turn of a run is seen along it. -/
theorem mem_along_of_turn {α : Type} {observer : Crew → Turn → Option α} {c : Crew}
    {us vs : List Turn} {t : Turn} {a : α} (h : observer (c.after us) t = some a) :
    a ∈ c.along observer (us ++ t :: vs) := by
  rw [along_append, along, h]
  simp

theorem mem_along_append {α : Type} {observer : Crew → Turn → Option α} {c : Crew}
    {us vs : List Turn} {a : α} (h : a ∈ c.along observer us) : a ∈ c.along observer (us ++ vs) := by
  rw [along_append]
  exact List.mem_append_left _ h

section join
variable {c : Crew} (hc : c.store.WellNumbered) {policy : Policy} {now : Calendar.Moment}
include hc

theorem onCourse_join (hlive : ∀ f, (Sweep.list policy now c.desk).activity ≠ .ended f) :
    (c.turn (.join policy now)).OnCourse c.sweeps.length policy c.store
      (Sweep.list policy now c.desk).due where
  wellNumbered := (turn_step hc (.join policy now)).wellNumbered hc
  course := by
    have hact : (Sweep.list policy now c.desk).activity = .taking := by
      unfold Sweep.list at hlive ⊢
      split
      · rename_i g hlist
        rw [hlist] at hlive
        exact absurd rfl (hlive (some g))
      · rfl
    refine ⟨Sweep.list policy now c.desk, by simp [turn], Sweep.list_policy policy now c.desk, hlive, ?_⟩
    exact .between hact (List.nil_append _).symm ⟨by simp, fun _ _ => rfl⟩

/-- The messages behind one of the list are none of those up to it. -/
theorem kept_behind {before rest : List Pending} {p : Pending} {st : Store}
    (hlisted : (Sweep.list policy now c.desk).due = before ++ p :: rest)
    (hframe : Frame policy c.store st before (before ++ [p])) :
    ∀ q ∈ rest, st.find? q.id = c.store.find? q.id := by
  intro q hq
  have hnodup := (Sweep.list_due hc policy now).1
  rw [hlisted, List.append_cons, List.map_append, List.nodup_append] at hnodup
  apply hframe.kept
  intro q' hq'
  exact hnodup.2.2 q'.id (List.mem_map_of_mem hq') q.id (List.mem_map_of_mem hq)

end join

/-- However a sweep ends that is the only one to act, only what was claimed before is claimed then. If
a cancellation ended it, the messages before one of its list are done with, and nothing happened to
those after it. That one was being sent, and is handed back with those that were reached noted; or the
operator was being told of it, and it is released, with the failure counted and recorded. -/
theorem sweep_leaves_no_claim (c : Crew) (hc : c.store.WellNumbered) (policy : Policy)
    (now : Calendar.Moment) (ts : List Turn) (honly : ∀ t ∈ ts, t.Only c.sweeps.length) (c' : Crew)
    (hc' : c' = c.after (.join policy now :: ts)) (s : Sweep)
    (hs : c'.sweeps[c.sweeps.length]? = some s) (f : Option Failure) (hend : s.activity = .ended f) :
    (∀ id r, c'.store.find? id = some r → r.claimedAt ≠ none → c.store.find? id = some r) ∧
    ∀ g, f = some g → g.isCancellation = true →
      ∃ before p after, (Sweep.list policy now c.desk).due = before ++ p :: after ∧
        (∀ q ∈ before, q.Treated policy c.store c'.store) ∧
        (∀ q ∈ after, c'.store.find? q.id = c.store.find? q.id) ∧
        (((∃ call ∈ c.along call? (.join policy now :: ts), call.id = p.id ∧
              call.answer = .error g) ∧
            HandedBack c.store c'.store p.id (c.calls (.join policy now :: ts) p.id)) ∨
          ((∃ call ∈ c.along alert? (.join policy now :: ts), call.id = p.id ∧
              call.answer = .error g) ∧
            ∃ attempts cause, p.Released attempts cause c.store c'.store ∧
              c'.store.Records (p.failure policy attempts cause))) := by
  have hnone : c.sweeps[c.sweeps.length]? = none := List.getElem?_eq_none (Nat.le_refl _)
  obtain ⟨hnodup, hdue⟩ := Sweep.list_due hc policy now
  have hrows : ∀ q ∈ (Sweep.list policy now c.desk).due, c.store.find? q.id ≠ none := by
    intro q hq hgone
    obtain ⟨r, hr, -⟩ := hdue q hq
    cases hgone.symm.trans hr
  subst hc'
  by_cases hlive : ∀ g, (Sweep.list policy now c.desk).activity ≠ .ended g
  · obtain ⟨us, t, vs, s₁, rfl, hs₁, hpolicy, hleft, halerted⟩ :=
      (onCourse_join hc hlive).exists_end hnodup hrows honly hs hend
    have hs₁' : (c.after (.join policy now :: us)).sweeps[c.sweeps.length]? = some s₁ := hs₁
    have hrun : Turn.join policy now :: (us ++ t :: vs) = (.join policy now :: us) ++ t :: vs := rfl
    refine ⟨fun id r hr hclaimed => hleft.claimed_before hr hclaimed, ?_⟩
    rintro g rfl hg
    cases hleft with
    | complete _ _ hf =>
      rw [hf g rfl] at hg
      cases hg
    | @handedBack before rest p _ r r' hact hlisted hframe hr hr' hlike hfree =>
      rw [hpolicy] at hframe
      refine ⟨before, p, rest, hlisted, hframe.treated, kept_behind hc hlisted hframe, Or.inl ⟨?_, ?_⟩⟩
      · obtain ⟨call, hcall, -, hid, hanswer⟩ := call_of_returning hc hnone hs₁' hact
        exact ⟨call, hrun ▸ mem_along_append hcall, hid, hanswer⟩
      · have hclaim := claim_of_holding hc hnone hs₁' (by rw [hact]; rfl)
        obtain ⟨p', hp', hid, hended⟩ := ended_after_sweep hc (fun t ht => (honly t ht).alone)
          (hrun ▸ mem_along_append hclaim) ⟨s, hs, by simp [Sweep.outcome?, hend]⟩
        rw [← hid] at hr hr' ⊢
        exact handedBack_of_ended hc hp' (hid ▸ hended) hr hr' hlike hfree
    | @unalerted before rest p attempts cause _ hact hlisted hframe hreleased hrecords halerts =>
      rw [hpolicy] at hframe hrecords halerts
      refine ⟨before, p, rest, hlisted, hframe.treated, kept_behind hc hlisted hframe,
        Or.inr ⟨?_, attempts, cause, hreleased, hrecords⟩⟩
      obtain ⟨_, hg', rfl⟩ := halerted p attempts cause hact
      cases hg'
      obtain ⟨chat, hchat⟩ := Option.isSome_iff_exists.mp (Bool.and_eq_true _ _ ▸ halerts).2
      refine ⟨⟨c.sweeps.length, p.id, Sweep.alert chat p attempts cause, .error g⟩, ?_, rfl, rfl⟩
      rw [hrun]
      apply mem_along_of_turn
      simp [alert?, hs₁, hact, Sweep.request?, hpolicy, hchat]
  · have hjoin : (c.turn (.join policy now)).sweeps[c.sweeps.length]? =
        some (Sweep.list policy now c.desk) := by simp [turn]
    obtain ⟨g, hg⟩ := Classical.not_forall_not.mp hlive
    obtain ⟨hstore, hs'⟩ := ended_after hjoin hg honly
    rw [after_cons] at hs ⊢
    cases hs.symm.trans hs'
    rw [hstore]
    refine ⟨fun id r hr _ => hr, ?_⟩
    rintro g' rfl hcancel
    rw [Sweep.not_cancelled_list hend] at hcancel
    cases hcancel

/-! ## A sweep that is cancelled -/

/-- A sweep reaches the first recipient of the reminder and is cancelled at the second. -/
def cancelledAtBob : List Turn :=
  [.advance 0, .answer 0 (.ok "receipt"), .advance 0, .answer 0 (.error .cancellation), .advance 0]

theorem sweep_leaves_no_claim_reminder :
    ∃ before p after,
      (Sweep.list thrice (.ofInstant oneOClock) reminded.desk).due = before ++ p :: after ∧
        HandedBack reminded.store
          (reminded.after (.join thrice (.ofInstant oneOClock) :: cancelledAtBob)).store p.id
          (reminded.calls (.join thrice (.ofInstant oneOClock) :: cancelledAtBob) p.id) := by
  have hwell : reminded.store.WellNumbered := wellNumbered_after (isFresh_idle noon).wellNumbered _
  have honly : ∀ t ∈ cancelledAtBob, t.Only reminded.sweeps.length := by
    intro t ht
    simp only [cancelledAtBob, List.mem_cons, List.not_mem_nil, or_false] at ht
    rcases ht with rfl | rfl | rfl | rfl | rfl <;> rfl
  have hover : ((reminded.after
      (.join thrice (.ofInstant oneOClock) :: cancelledAtBob)).sweeps[reminded.sweeps.length]?.map
        Sweep.isCancelled) = some true := by decide +kernel
  obtain ⟨s, hs, hcancelled⟩ := Option.map_eq_some_iff.mp hover
  obtain ⟨f, hend, hf⟩ := Sweep.ended_of_isCancelled hcancelled
  obtain ⟨-, hleft⟩ := sweep_leaves_no_claim reminded hwell thrice (.ofInstant oneOClock)
    cancelledAtBob honly _ rfl s hs _ hend
  obtain ⟨before, p, after, hlisted, -, -, ⟨-, hback⟩ | ⟨⟨call, hcall, -⟩, -⟩⟩ :=
    hleft f rfl hf
  · exact ⟨before, p, after, hlisted, hback⟩
  · have hsilent : (reminded.along alert?
        (.join thrice (.ofInstant oneOClock) :: cancelledAtBob)).length = 0 := by decide +kernel
    rw [List.length_eq_zero_iff.mp hsilent] at hcall
    cases hcall

end Crew

end Courier.Outbox
