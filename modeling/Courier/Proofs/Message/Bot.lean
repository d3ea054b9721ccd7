import Courier.Message.Telegram
import Courier.Script.Dispatch

/-!
# A bot that never fails

A messenger over such a bot conveys a message or refuses it: it sends all posts of the message, one
after another, or none if a recipient does not resolve. `Conveys` says which posts it sends and what it
answers. A routine sends the posts of its calls; a dispatch without a delay makes a single call.
-/

namespace Courier.Message.Telegram

/-! ## Deliveries -/

namespace Delivery

/-- Sends the posts that are left; the bot gives each of them the next number. -/
def run (d : Delivery) : List Int → List Post × Delivery
  | [] => ([], d)
  | number :: numbers =>
    match d.next? with
    | none => ([], d)
    | some post => (post :: ((d.confirm number).run numbers).1, ((d.confirm number).run numbers).2)

theorem run_all (d : Delivery) (numbers : List Int) (h : numbers.length = d.left.length) :
    (d.run numbers).1 = d.left ∧ (d.run numbers).2.left = [] := by
  obtain ⟨left, receipts⟩ := d
  induction numbers generalizing left receipts with
  | nil =>
    obtain rfl := List.length_eq_zero_iff.mp h.symm
    exact ⟨rfl, rfl⟩
  | cons number numbers ih =>
    cases left with
    | nil => cases h
    | cons post left =>
      obtain ⟨hposts, hleft⟩ := ih left _ (Nat.succ.inj h)
      rw [run]
      exact ⟨congrArg (post :: ·) hposts, hleft⟩

/-- The posts that were sent are those that were left before and are not any more. -/
theorem run_append (d : Delivery) (numbers : List Int) :
    (d.run numbers).1 ++ (d.run numbers).2.left = d.left := by
  obtain ⟨left, receipts⟩ := d
  induction numbers generalizing left receipts with
  | nil => rfl
  | cons number numbers ih =>
    cases left with
    | nil => rfl
    | cons post left =>
      rw [run]
      exact congrArg (post :: ·) (ih left _)

end Delivery

/-! ## Messages -/

def startOf (payload : Payload) : Except Failure Delivery :=
  Delivery.start payload.title payload.body (payload.recipients.map .text)

/-- The posts that a messenger over a bot that never fails sends for a message, and its answer. -/
inductive Conveys (payload : Payload) : List Post → Except Failure String → Prop
  | refused {f : Failure} (h : startOf payload = .error f) : Conveys payload [] (.error f)
  | conveyed {d : Delivery} {numbers : List Int} (h : startOf payload = .ok d)
    (hdone : (d.run numbers).2.left = []) :
    Conveys payload (d.run numbers).1 (.ok (d.run numbers).2.receipt)

/-- The posts of a message; one that is refused has none. -/
def postsOf (payload : Payload) : List Post :=
  ((posts payload.title payload.body (payload.recipients.map .text)).toOption).getD []

def accepts (payload : Payload) : Bool :=
  (posts payload.title payload.body (payload.recipients.map .text)).isOk

theorem Conveys.spec {payload : Payload} {sent : List Post} {answer : Except Failure String}
    (h : Conveys payload sent answer) : sent = postsOf payload ∧ answer.isOk = accepts payload := by
  cases h with
  | refused h =>
    simp only [startOf, Delivery.start] at h
    rw [postsOf, accepts]
    cases hposts : posts payload.title payload.body (payload.recipients.map .text) with
    | error f => exact ⟨rfl, rfl⟩
    | ok left =>
      rw [hposts] at h
      cases h
  | @conveyed d numbers h hdone =>
    have hall := d.run_append numbers
    rw [hdone, List.append_nil] at hall
    simp only [startOf, Delivery.start] at h
    rw [postsOf, accepts]
    cases hposts : posts payload.title payload.body (payload.recipients.map .text) with
    | error f =>
      rw [hposts] at h
      cases h
    | ok left =>
      rw [hposts] at h
      cases h
      exact ⟨hall, rfl⟩

/-- What a messenger answers whose bot gives each post the number 0. -/
def answerTo (payload : Payload) : Except Failure String :=
  (startOf payload).map fun d => (d.run (List.replicate d.left.length 0)).2.receipt

theorem conveys_answerTo (payload : Payload) :
    Conveys payload (postsOf payload) (answerTo payload) := by
  rw [answerTo]
  cases hstart : startOf payload with
  | error f =>
    have h := Conveys.refused hstart
    exact h.spec.1 ▸ h
  | ok d =>
    have hrun := d.run_all (List.replicate d.left.length 0) List.length_replicate
    have h := Conveys.conveyed hstart hrun.2
    exact h.spec.1 ▸ h

/-! ## Recipient after recipient -/

/-- A recipient stands for a chat. -/
def resolves (recipient : String) : Bool :=
  (ChatId.resolve (.text recipient)).isOk

theorem resolves_iff {recipient : String} :
    resolves recipient = true ↔ ∃ chat, ChatId.resolve (.text recipient) = .ok chat := by
  rw [resolves]
  cases ChatId.resolve (.text recipient) with
  | error f => simp [Except.isOk, Except.toBool]
  | ok chat => simp [Except.isOk, Except.toBool]

section text
variable (title body : String)

theorem posts_text (recipients : List String) :
    posts (.text title) (.text body) (recipients.map .text) =
      (resolveAll (recipients.map .text)).map fun chats =>
        postsTo chats (markedUp title.toList body.toList) := by
  rw [posts]
  cases resolveAll (recipients.map .text) with
  | error f => rfl
  | ok chats => rfl

theorem resolveAll_cons (recipient : String) (rest : List String) :
    resolveAll ((recipient :: rest).map .text) = (do
      let chat ← ChatId.resolve (.text recipient)
      let chats ← resolveAll (rest.map .text)
      return chat :: chats) := by
  rw [resolveAll, List.map_cons, List.mapM_cons]
  rfl

theorem postsOf_single {recipient : String} {chat : ChatId}
    (h : ChatId.resolve (.text recipient) = .ok chat) :
    postsOf ⟨.text title, .text body, [recipient]⟩ =
      postsTo [chat] (markedUp title.toList body.toList) := by
  rw [postsOf, posts_text, resolveAll_cons, h]
  rfl

theorem accepts_single (recipient : String) :
    accepts ⟨.text title, .text body, [recipient]⟩ = resolves recipient := by
  rw [accepts, posts_text, resolveAll_cons, resolves]
  cases ChatId.resolve (.text recipient) with
  | error f => rfl
  | ok chat => rfl

theorem postsOf_unresolved {recipients : List String}
    (h : ∃ x ∈ recipients, resolves x = false) :
    postsOf ⟨.text title, .text body, recipients⟩ = [] := by
  have hfails : ∃ f, resolveAll (recipients.map .text) = .error f := by
    induction recipients with
    | nil => simp at h
    | cons recipient rest ih =>
      rw [resolveAll_cons]
      cases hchat : ChatId.resolve (.text recipient) with
      | error f => exact ⟨f, rfl⟩
      | ok chat =>
        obtain ⟨x, hx, hfalse⟩ := h
        have hrest : x ∈ rest := by
          refine (List.mem_cons.mp hx).resolve_left ?_
          rintro rfl
          rw [resolves, hchat] at hfalse
          cases hfalse
        obtain ⟨f, hf⟩ := ih ⟨x, hrest, hfalse⟩
        exact ⟨f, by rw [hf]; rfl⟩
  obtain ⟨f, hf⟩ := hfails
  rw [postsOf, posts_text, hf]
  rfl

/-- If all recipients resolve, the posts to one come after those to the one before. -/
theorem postsOf_resolved {recipients : List String} (h : ∀ x ∈ recipients, resolves x = true) :
    postsOf ⟨.text title, .text body, recipients⟩ =
      recipients.flatMap fun x => postsOf ⟨.text title, .text body, [x]⟩ := by
  have hchats : ∃ chats, resolveAll (recipients.map .text) = .ok chats ∧
      (recipients.flatMap fun x => postsOf ⟨.text title, .text body, [x]⟩) =
        postsTo chats (markedUp title.toList body.toList) := by
    induction recipients with
    | nil => exact ⟨[], rfl, rfl⟩
    | cons recipient rest ih =>
      obtain ⟨chat, hchat⟩ := resolves_iff.mp (h recipient List.mem_cons_self)
      obtain ⟨chats, hall, hposts⟩ := ih fun x hx => h x (List.mem_cons_of_mem recipient hx)
      refine ⟨chat :: chats, ?_, ?_⟩
      · rw [resolveAll_cons, hchat, hall]
        rfl
      · rw [List.flatMap_cons, hposts, postsOf_single title body hchat]
        simp [postsTo]
  obtain ⟨chats, hall, hposts⟩ := hchats
  rw [hposts, postsOf, posts_text, hall]
  rfl

end text

end Courier.Message.Telegram

/-! ## Routines -/

namespace Courier

open Message.Telegram

/-- The posts that a routine sends through a bot that never fails. -/
inductive Routine.Sends {σ α : Type} : Routine σ α → σ → List Post → Prop
  | done (a : α) (s : σ) : Sends (.done a) s []
  | read {next : σ → Routine σ α} {s : σ} {sent : List Post} (h : (next s).Sends s sent) :
    Sends (.read next) s sent
  | write {s s' : σ} {next : Routine σ α} {sent : List Post} (h : next.Sends s' sent) :
    Sends (.write s' next) s sent
  | send {payload : Message.Payload} {next : Except Failure String → Routine σ α} {s : σ}
    {sent more : List Post} {answer : Except Failure String} (hcall : Conveys payload sent answer)
    (h : (next answer).Sends s more) : Sends (.send payload next) s (sent ++ more)
  | signal {v : Value} {next : Routine σ α} {s : σ} {sent : List Post} (h : next.Sends s sent) :
    Sends (.signal v next) s sent

/-- A message that is dispatched without a delay is sent in a single call. -/
theorem Script.Dispatch.sends_at_once {payload : Message.Payload} {delay : Value}
    (hrecipients : Script.Dispatch.checkRecipients payload = .ok ())
    (hdelay : Script.Dispatch.minutes delay = .ok none) (automationId : Value) (d : Desk)
    (sent : List Post) :
    (Script.Dispatch.send payload delay automationId).Sends d sent ↔ sent = postsOf payload := by
  have hplan : Script.Dispatch.plan payload delay automationId d = .send := by
    rw [Script.Dispatch.plan, hrecipients, hdelay]
  constructor
  · intro h
    cases h with
    | read h =>
      simp only [hplan] at h
      cases h with
      | @send _ _ _ sent more answer hcall h =>
        have hmore : more = [] := by
          cases answer with
          | error f =>
            cases h
            rfl
          | ok receipt =>
            cases h with
            | read h =>
              cases h with
              | write h =>
                cases h
                rfl
        rw [hmore, List.append_nil]
        exact hcall.spec.1
  · rintro rfl
    apply Routine.Sends.read
    simp only [hplan]
    rw [← List.append_nil (postsOf payload)]
    apply Routine.Sends.send (conveys_answerTo payload)
    cases answerTo payload with
    | error f => exact .done _ d
    | ok receipt => exact .read (.write (.done _ _))

end Courier
