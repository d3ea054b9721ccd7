import Courier.Proofs.Message.Bot
import Courier.Proofs.Message.Cuts

/-!
# A bot that may fail

A messenger over such a bot stops at the first post that the bot fails to send, and gives the failure
on. It tells nothing of the posts that were sent before.
-/

namespace Courier.Message.Telegram

theorem Delivery.run_zeros (d : Delivery) (n : Nat) :
    (d.run (List.replicate n 0)).1 = d.left.take n ∧
      (d.run (List.replicate n 0)).2.left = d.left.drop n := by
  obtain ⟨left, receipts⟩ := d
  induction n generalizing left receipts with
  | zero => exact ⟨rfl, rfl⟩
  | succ n ih =>
    cases left with
    | nil => exact ⟨rfl, rfl⟩
    | cons post left =>
      obtain ⟨hposts, hleft⟩ := ih left (receipts ++ [receiptText post 0])
      exact ⟨congrArg (post :: ·) hposts, hleft⟩

/-- The posts that a messenger over a bot that may fail sends for a message, and its answer. -/
inductive Transmits (payload : Payload) : List Post → Except Failure String → Prop
  | conveyed {sent : List Post} {answer : Except Failure String} (h : Conveys payload sent answer) :
    Transmits payload sent answer
  | broken {d : Delivery} {numbers : List Int} {post : Post} (f : Failure)
    (h : startOf payload = .ok d) (hnext : (d.run numbers).2.next? = some post) :
    Transmits payload (d.run numbers).1 (.error f)

/-- The bot sends so many posts, and then fails. -/
theorem transmits_take {payload : Payload} {d : Delivery} (h : startOf payload = .ok d) {n : Nat}
    (hn : n < d.left.length) (f : Failure) : Transmits payload (d.left.take n) (.error f) := by
  obtain ⟨hposts, hleft⟩ := d.run_zeros n
  have hnext : (d.run (List.replicate n 0)).2.next? = some d.left[n] := by
    rw [Delivery.next?, hleft, List.head?_drop, List.getElem?_eq_getElem hn]
  rw [← hposts]
  exact .broken f h hnext

section single
variable {title body x : String} {chat : ChatId} (hchat : ChatId.resolve (.text x) = .ok chat)
include hchat

theorem startOf_single :
    startOf ⟨.text title, .text body, [x]⟩ =
      .ok ⟨postsTo [chat] (markedUp title.toList body.toList), []⟩ := by
  rw [startOf, Delivery.start, posts_text, resolveAll_cons, hchat]
  rfl

/-- What is sent to a recipient are the first chunks of the text, and all of them if no failure is
told. -/
theorem Transmits.spec {sent : List Post} {answer : Except Failure String}
    (h : Transmits ⟨.text title, .text body, [x]⟩ sent answer) :
    sent <+: postsTo [chat] (markedUp title.toList body.toList) ∧
      (answer.isOk = false →
        sent.length < (postsTo [chat] (markedUp title.toList body.toList)).length) := by
  cases h with
  | conveyed h =>
    obtain ⟨hsent, hanswer⟩ := h.spec
    rw [postsOf_single title body hchat] at hsent
    rw [accepts_single, resolves_iff.mpr ⟨chat, hchat⟩] at hanswer
    rw [hsent, hanswer]
    exact ⟨List.prefix_refl _, fun hfalse => by cases hfalse⟩
  | @broken d numbers post f h hnext =>
    rw [startOf_single hchat] at h
    generalize postsTo [chat] (markedUp title.toList body.toList) = posts at h ⊢
    cases h
    have hall := Delivery.run_append ⟨posts, []⟩ numbers
    refine ⟨⟨_, hall⟩, fun _ => ?_⟩
    have hleft : 0 < (Delivery.run ⟨posts, []⟩ numbers).2.left.length := by
      rw [Delivery.next?] at hnext
      exact List.length_pos_of_mem (List.mem_of_head? hnext)
    have hlength := congrArg List.length hall
    rw [List.length_append] at hlength
    dsimp only at hlength
    omega

end single

end Courier.Message.Telegram
