import Courier.Message.Telegram
import Mathlib.Data.List.Forall2

/-!
# The calls of a bot

A messenger calls its bot for one post after another, and stops at the first call that fails. The bot
may answer each call as it likes: nothing is assumed of it. Which posts there are is settled before the
first call, and so is whether there are any: a recipient that does not resolve leaves none.
-/

namespace Courier.Message.Telegram

/-! ## Runs of calls -/

/-- The bot is called for the posts in this order, and answers with these numbers. -/
inductive Accepts (bot : Bot) : List Post → List Int → Prop where
  | nil : Accepts bot [] []
  | concat {posts : List Post} {numbers : List Int} {post : Post} {number : Int}
    (h : Accepts bot posts numbers) (hpost : bot posts post = .ok number) :
    Accepts bot (posts ++ [post]) (numbers ++ [number])

theorem Accepts.length_eq {bot : Bot} {posts : List Post} {numbers : List Int}
    (h : Accepts bot posts numbers) : posts.length = numbers.length := by
  induction h with
  | nil => rfl
  | concat _ _ ih => rw [List.length_append, List.length_append, ih]; rfl

def receipts (posts : List Post) (numbers : List Int) : List String :=
  List.zipWith Delivery.receiptText posts numbers

/-- The calls of a bot that is to send the posts, and the answer of the messenger. -/
inductive Course (bot : Bot) (posts : List Post) : List Post → Except Failure String → Prop where
  | finished {numbers : List Int} (h : Accepts bot posts numbers) :
    Course bot posts posts (.ok (",".intercalate (receipts posts numbers)))
  | broken {before after : List Post} {post : Post} {numbers : List Int} {f : Failure}
    (hposts : posts = before ++ post :: after) (h : Accepts bot before numbers)
    (hpost : bot before post = .error f) : Course bot posts (before ++ [post]) (.error f)

end Courier.Message.Telegram
