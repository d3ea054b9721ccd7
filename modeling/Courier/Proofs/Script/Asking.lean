import Courier.Proofs.Script.Traces
import Courier.Proofs.Template.Queries
import Courier.Proofs.Crew.Steps
import Courier.Script.SendMessage

/-!
# What the built-in script asks for

A run of `send_message` puts queries to the source of reports while it renders the title and the body,
and at no other time. They are the queries of the two templates, in the order of the text. What the
trigger brought along has no part in them: it takes the place of tokens, and is not read as a template.
-/

namespace Courier.Script

open Report (Query Source)

namespace Dispatch

variable {payload : Message.Payload} {delay automationId : Value}

/-- What a dispatch does among others. -/
theorem trace_send (w : Surroundings Desk) (calls : Nat) (d : Desk) :
    (send payload delay automationId).trace w calls d =
      match plan payload delay automationId d with
      | .refuse f => ⟨[], .error f, d⟩
      | .store result d' => ⟨[.change d d'], .ok result, d'⟩
      | .send =>
        match w.answer calls payload with
        | .error f => ⟨[.call payload (.error f)], .error f, w.meanwhile calls d⟩
        | .ok receipt =>
          let before := w.meanwhile calls d
          let after := before.log (sentRecord automationId)
          ⟨[.call payload (.ok receipt), .change before after], .ok (.sent receipt), after⟩ := by
  rw [send, Routine.trace]
  cases plan payload delay automationId d with
  | refuse f => rfl
  | store result d' => rfl
  | send =>
    rw [Routine.trace]
    cases w.answer calls payload with
    | error f => rfl
    | ok receipt => rfl

theorem plan_store_asked {d d' : Desk} {result : Dispatched}
    (h : plan payload delay automationId d = .store result d') : d'.asked = d.asked := by
  obtain ⟨-, draft, id, store, -, -, -, -, -, -, rfl⟩ := Outbox.Crew.plan_stored h
  rfl

end Dispatch

namespace SendMessage

/-- The queries that an act puts to the source of reports. -/
def queriesOf : Act Desk → List Query
  | .change before after => after.asked.drop before.asked.length
  | .call _ _ | .signal _ => []

def titleTemplate (c : Context) : String :=
  (c.field "title" (.text "")).display

def bodyTemplate (c : Context) : String :=
  (c.field "body" (.text "")).display

/-- The queries of the two templates of a message. -/
def messageQueries (c : Context) : List Query :=
  Template.templateQueries (titleTemplate c) ++ Template.templateQueries (bodyTemplate c)

variable (siteTitle : String) {c : Context} {answer : Source}

/-! ## Rendering -/

theorem render_source (template : String) (values : Entries) (d : Desk) :
    (render siteTitle template values d).2.source = d.source := rfl

/-- Rendering a template asks for its reports, and leaves what comes later to be asked for, or ends with
a cancellation. -/
theorem render_cases {d : Desk} (h : d.source = some answer) (template : String) (values : Entries)
    (later : List Query) :
    let rendered := render siteTitle template values d
    let asked :=
      d.asked ++ Template.untilCancelled answer d.asked.length
        (Template.templateQueries template ++ later)
    (∃ f, rendered.1 = .error f ∧ rendered.2.asked = asked) ∨
      ∃ text, rendered.1 = .ok text ∧
        rendered.2.asked ++ Template.untilCancelled answer rendered.2.asked.length later = asked := by
  intro rendered asked
  have happend := Template.untilCancelled_append
    (Template.lookupTable siteTitle values) answer d.asked.length (Template.pieces template.toList) later
  have hasked : rendered.2.asked = d.asked ++ (Template.renderPieces d.source
      (Template.lookupTable siteTitle values) d.asked.length
      (Template.pieces template.toList)).queries := rfl
  have houtcome : rendered.1 = (Template.renderPieces d.source
      (Template.lookupTable siteTitle values) d.asked.length
      (Template.pieces template.toList)).outcome.map String.join := rfl
  rw [h] at hasked houtcome
  split at happend
  · rename_i texts htexts
    rw [htexts] at houtcome
    refine Or.inr ⟨_, houtcome, ?_⟩
    rw [hasked, List.length_append, List.append_assoc, ← happend]
    rfl
  · rename_i f hf
    rw [hf] at houtcome
    refine Or.inl ⟨f, houtcome, ?_⟩
    rw [hasked, ← happend]
    rfl

theorem renderBoth_asked {d : Desk} (h : d.source = some answer) :
    (renderBoth siteTitle c d).2.asked =
      d.asked ++ Template.untilCancelled answer d.asked.length (messageQueries c) := by
  have htitle := render_cases siteTitle h (titleTemplate c)
    (placeholderValues c.trigger c.triggerPayload) (Template.templateQueries (bodyTemplate c))
  have hkept := render_source siteTitle (titleTemplate c)
    (placeholderValues c.trigger c.triggerPayload) d
  rw [messageQueries]
  unfold renderBoth
  dsimp only at htitle ⊢
  rw [← titleTemplate, ← bodyTemplate]
  split
  · rename_i f d₁ hrender
    rw [hrender] at htitle
    rcases htitle with ⟨f', -, hasked⟩ | ⟨text, htext, -⟩
    · exact hasked
    · cases htext
  · rename_i title d₁ hrender
    rw [hrender] at htitle hkept
    rcases htitle with ⟨f', hf', -⟩ | ⟨text, -, hasked⟩
    · cases hf'
    have hbody := render_cases siteTitle (hkept.trans h) (bodyTemplate c)
      (placeholderValues c.trigger c.triggerPayload) []
    dsimp only at hbody hasked
    rw [List.append_nil, hasked] at hbody
    split
    · rename_i f d₂ hrender₂
      rw [hrender₂] at hbody
      rcases hbody with ⟨f', -, hbody⟩ | ⟨text, htext, -⟩
      · exact hbody
      · cases htext
    · rename_i body d₂ hrender₂
      rw [hrender₂] at hbody
      rcases hbody with ⟨f', hf', -⟩ | ⟨text, -, hbody⟩
      · cases hf'
      · rw [Template.untilCancelled, List.append_nil] at hbody
        exact hbody

/-! ## Running -/

/-- The act puts no query to the source. -/
def IsQuiet : Act Desk → Prop
  | .change before after => after.asked = before.asked
  | .call _ _ | .signal _ => True

theorem queriesOf_of_isQuiet {a : Act Desk} (h : IsQuiet a) : queriesOf a = [] := by
  cases a with
  | change before after =>
    rw [queriesOf, show after.asked = before.asked from h, List.drop_length]
  | call payload answer => rfl
  | signal v => rfl

theorem isQuiet_of_mem_send {payload : Message.Payload} {delay automationId : Value}
    {w : Surroundings Desk} {calls : Nat} {d : Desk} {a : Act Desk}
    (ha : a ∈ ((Dispatch.send payload delay automationId).trace w calls d).acts) : IsQuiet a := by
  rw [Dispatch.trace_send] at ha
  split at ha
  · cases ha
  · rename_i result d' hplan
    obtain rfl := List.mem_singleton.mp ha
    exact Dispatch.plan_store_asked hplan
  · split at ha
    · obtain rfl := List.mem_singleton.mp ha
      trivial
    · rcases List.mem_cons.mp ha with rfl | ha
      · trivial
      · obtain rfl := List.mem_singleton.mp ha
        rfl

/-- A run renders the two templates first. What it does after that puts no query to the source. -/
theorem acts_runIn (c : Context) (w : Surroundings Desk) (calls : Nat) (d : Desk) :
    ∃ acts, ((runIn siteTitle c).trace w calls d).acts =
        .change d (renderBoth siteTitle c d).2 :: acts ∧ ∀ a ∈ acts, IsQuiet a := by
  rw [runIn, Routine.trace_act_bind]
  refine ⟨_, rfl, ?_⟩
  generalize renderBoth siteTitle c d = rendered
  obtain ⟨outcome, d₁⟩ := rendered
  cases outcome with
  | error f =>
    intro a ha
    rw [Routine.trace_done] at ha
    cases ha
  | ok texts =>
    dsimp only
    split
    · intro a ha
      rw [Routine.trace_done] at ha
      cases ha
    · rename_i payload _
      rw [Routine.trace_act_bind]
      have htrace := Routine.trace_bind w calls
        (Dispatch.send payload (parseDelay (c.field "delay" .null)).1 c.automation.id)
        (fun result => .done (result.map fun _ => Value.null))
        (d₁.logAll (parseDelay (c.field "delay" .null)).2)
      intro a ha
      rcases List.mem_cons.mp ha with rfl | ha
      · rfl
      · rw [htrace, Trace.after_acts, Routine.trace_done, List.append_nil] at ha
        exact isQuiet_of_mem_send ha

theorem queries_runIn (w : Surroundings Desk) (calls : Nat) {d : Desk} (h : d.source = some answer) :
    ((runIn siteTitle c).trace w calls d).acts.flatMap queriesOf =
      Template.untilCancelled answer d.asked.length (messageQueries c) := by
  obtain ⟨acts, hacts, hquiet⟩ := acts_runIn siteTitle c w calls d
  have hlater : acts.flatMap queriesOf = [] :=
    List.flatMap_eq_nil_iff.mpr fun a ha => queriesOf_of_isQuiet (hquiet a ha)
  rw [hacts, List.flatMap_cons, hlater, List.append_nil, queriesOf, renderBoth_asked siteTitle h,
    List.drop_left]

/-- Whatever the trigger brought along, a run puts the same queries to a source whose answers depend on
the query alone: those of the title and those of the body, up to one that is cancelled. -/
theorem queries_of_any_payload (siteTitle : String) (c : Context) (payload payload' : Entries)
    (answer : Source) (hsteady : ∀ m n q, (answer m q).outcome = (answer n q).outcome)
    (w w' : Surroundings Desk) (calls calls' : Nat) (d d' : Desk) (h : d.source = some answer)
    (h' : d'.source = some answer) :
    let asked (payload : Entries) (w : Surroundings Desk) (calls : Nat) (d : Desk) : List Query :=
      ((runIn siteTitle { c with triggerPayload := payload }).trace w calls d).acts.flatMap queriesOf
    asked payload w calls d = asked payload' w' calls' d' ∧
      asked payload w calls d <+: messageQueries c ∧
      (Template.NeverCancelled answer → asked payload w calls d = messageQueries c) := by
  intro asked
  have hasked : asked payload w calls d =
      Template.untilCancelled answer d.asked.length (messageQueries c) := queries_runIn siteTitle w calls h
  have hasked' : asked payload' w' calls' d' =
      Template.untilCancelled answer d'.asked.length (messageQueries c) := queries_runIn siteTitle w' calls' h'
  refine ⟨?_, ?_, fun hnever => ?_⟩
  · rw [hasked, hasked', Template.untilCancelled_congr hsteady]
  · rw [hasked]
    exact Template.untilCancelled_prefix answer _ _
  · rw [hasked, Template.untilCancelled_eq hnever]

/-- A message about two reports, with tokens for names that a payload may have. -/
def digest : Context where
  automation :=
    { id := .int 1
      script := scriptName
      trigger := some "login"
      triggerState := []
      fields :=
        [("title", .text "%%name%%: %%REPORT=daily user=%%user%%%%"),
          ("body", .text "%%report%% %%trigger%% %%Report= Weekly  start_date=2024-03-01%%"),
          ("recipients", .list [.text "ann"])] }
  definition :=
    { name := scriptName, version := 1, fields := [], placeholders := [], forced := none,
      declared := [] }
  trigger := some "login"
  triggerState := []
  triggerPayload := []
  traceId := "t"

/-- Fails to give one report; all others are empty. -/
def weeklyOnly : Source :=
  fun _ q =>
    if q.name = "daily" then ⟨.error (.reportUnavailable "no such report"), []⟩
    else ⟨.ok (some []), []⟩

def tokens : Entries :=
  [("name", .text "%%REPORT=secret%%"), ("user", .text "x%% %%REPORT=secret%%"),
    ("report", .text "%%REPORT=secret%%"), ("TRIGGER", .text "=secret%%")]

theorem queries_of_any_payload_tokens :
    let w : Surroundings Desk := ⟨fun _ _ => .ok "1", fun _ d => d⟩
    let d : Desk := { (Outbox.Crew.idle Outbox.Crew.noon).desk with source := some weeklyOnly }
    let asked (payload : Entries) : List Query :=
      ((runIn "Site" { digest with triggerPayload := payload }).trace w 0 d).acts.flatMap queriesOf
    (∀ m n q, (weeklyOnly m q).outcome = (weeklyOnly n q).outcome) ∧ d.source = some weeklyOnly ∧
      asked tokens = asked [] ∧ (asked tokens).map (·.name) = ["daily", "weekly"] := by
  intro w d asked
  have hsteady : ∀ m n q, (weeklyOnly m q).outcome = (weeklyOnly n q).outcome := fun _ _ _ => rfl
  have hnever : Template.NeverCancelled weeklyOnly := by
    rintro n q ⟨f, hf, hcancelled⟩
    unfold weeklyOnly at hf
    split at hf
    · cases hf
      cases hcancelled
    · cases hf
  have hnames : (messageQueries { digest with triggerPayload := tokens }).map (·.name) =
      ["daily", "weekly"] := by decide +kernel
  obtain ⟨hsame, -, hall⟩ := queries_of_any_payload "Site" digest tokens [] weeklyOnly hsteady w w 0 0
    d d rfl rfl
  refine ⟨hsteady, rfl, hsame, ?_⟩
  have hasked : asked tokens = messageQueries { digest with triggerPayload := tokens } := hall hnever
  rw [hasked, hnames]

end SendMessage

end Courier.Script
