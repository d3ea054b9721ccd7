import Courier.Proofs.Script.Registries

/-!
# What a block builds

A block makes calls, learns what becomes of each and goes on by it: it may stop at a call that was refused,
or pass over it. `Makes` tells which calls it makes, and `Builder.Passes` what they do. The definition that an
add builds has a field for each accepted call of a field and no others, so its fields have distinct names.
-/

namespace Courier.Script

variable {α : Type}

/-- A block makes these calls if they are answered so, and then it is complete or fails. The definitions that
it adds on its way have blocks of their own. -/
inductive Makes (σ : Species α) : Block → List Declaration → Option Failure → Prop where
  | finish : Makes σ .finish [] none
  | fail (f : Failure) : Makes σ (.fail f) [] (some f)
  | call {c : Call} {next : Option Failure → Block} {refusal ending : Option Failure}
    {made : List Declaration} (hrest : Makes σ (next refusal) made ending) :
    Makes σ (.call c next) (⟨c, refusal⟩ :: made) ending
  | add {name : Value} {block : Block} {next : Option Failure → Block} {result : Except Failure α}
    {ps : List (Publication α)} {made : List Declaration} {ending : Option Failure}
    (hadd : Adds σ name block result ps)
    (hrest : Makes σ (next (Registry.failure? result)) made ending) :
    Makes σ (.add name block next) made ending

namespace Registry

/-- A block that goes on after refused calls, and keeps the kinds of their failures as placeholders. -/
example :
    let field (name : String) : Call := .field (.text name) [("component", .text "text")]
    let note (refusal : Option Failure) : Call := .placeholder (.text (refusal.elim "" Failure.kind))
    let block : Block :=
      .call (field " cat") fun _ => .call (field "cat\u3000") fun again => .call (note again) fun _ =>
        .call (field "\u2003") fun blank => .call (note blank) fun _ => .call (field "Cat") fun _ => .finish
    let script := (empty .script).add Builder.script (.text "pets") block
    script.outcome.toOption.map (fun s => (s.definition.fields.map (·.name), s.definition.placeholders)) =
      some (["cat", "Cat"], ["site_title", "duplicatefield", "valueerror"]) := by
  decide +kernel

end Registry

end Courier.Script
