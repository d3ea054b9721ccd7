import Courier.Proofs.Redaction.Texts
import Courier.Proofs.Value.Places

/-!
# Secrets in payloads

A masked payload is told by what it shows at each place. A place behind a key that names a secret shows a
mask, and there is nothing further inside; any other place shows what it did, but texts are masked. No
other value shows this, and masking a payload that was masked changes nothing.
-/

namespace Courier.Redaction

open Value (Step Face)

/-! ## Keys -/

/-- The name of a secret is in the key, in whatever case. -/
def NamesSecret (key : String) : Prop :=
  ∃ name, name.map fold ∈ sensitiveNames ∧ name <:+: key.toList

theorem sensitiveNames_free : ∀ n ∈ sensitiveNames, ∀ m ∈ sensitiveNames, n <+: m → n = m := by
  decide

theorem namesSecret_iff (cs : List Char) :
    namesSecret cs = true ↔ ∃ name, name.map fold ∈ sensitiveNames ∧ name <:+: cs := by
  have hne : ∀ n ∈ sensitiveNames, n ≠ [] := by decide
  induction cs with
  | nil =>
    constructor
    · intro h
      cases h
    · rintro ⟨name, hname, hinfix⟩
      rw [List.infix_nil.mp hinfix] at hname
      exact absurd rfl (hne _ hname)
  | cons c cs ih =>
    have hstart : (dropAnyName sensitiveNames (c :: cs)).isSome = true ↔
        ∃ name, name.map fold ∈ sensitiveNames ∧ name <+: c :: cs := by
      rw [Option.isSome_iff_exists]
      constructor
      · rintro ⟨rest, hrest⟩
        obtain ⟨name, hcs, hname⟩ := (dropAnyName_eq_some sensitiveNames_free).mp hrest
        exact ⟨name, hname, rest, hcs.symm⟩
      · rintro ⟨name, hname, rest, hcs⟩
        exact ⟨rest, (dropAnyName_eq_some sensitiveNames_free).mpr ⟨name, hcs.symm, hname⟩⟩
    rw [namesSecret, Bool.or_eq_true, hstart]
    constructor
    · rintro (⟨name, hname, hprefix⟩ | hrest)
      · exact ⟨name, hname, hprefix.isInfix⟩
      · obtain ⟨name, hname, hinfix⟩ := ih.mp hrest
        exact ⟨name, hname, List.infix_cons hinfix⟩
    · rintro ⟨name, hname, hinfix⟩
      rcases List.infix_cons_iff.mp hinfix with hprefix | hinfix
      · exact .inl ⟨name, hname, hprefix⟩
      · exact .inr (ih.mpr ⟨name, hname, hinfix⟩)

theorem isSensitiveKey_iff (key : String) : isSensitiveKey key = true ↔ NamesSecret key :=
  namesSecret_iff key.toList

/-! ## One step -/

/-- The step leads to the value of a key that names a secret. -/
def IsHidden : Step → Prop
  | .item _ => False
  | .entry _ key => NamesSecret key

def maskText : Value :=
  .text "<redacted>"

theorem redactItems_eq (items : List Value) : redactItems items = items.map redact := by
  induction items with
  | nil => rfl
  | cons v items ih => rw [redactItems, ih, List.map_cons]

def redactEntry (e : String × Value) : String × Value :=
  (e.1, if isSensitiveKey e.1 then maskText else redact e.2)

theorem redactEntries_eq (entries : List (String × Value)) :
    redactEntries entries = entries.map redactEntry := by
  induction entries with
  | nil => rfl
  | cons e entries ih =>
    rw [redactEntries, ih, List.map_cons]
    rfl

theorem part?_redact_item (v : Value) (i : Nat) :
    (redact v).part? (.item i) = (v.part? (.item i)).map redact := by
  cases v with
  | list items => rw [redact, redactItems_eq, Value.part?, Value.part?, List.getElem?_map]
  | _ => rfl

theorem part?_redact_entry (v : Value) (i : Nat) (key : String) :
    (redact v).part? (.entry i key) = (v.part? (.entry i key)).map fun w =>
      if isSensitiveKey key then maskText else redact w := by
  cases v with
  | object entries =>
    rw [redact, redactEntries_eq, Value.part?, Value.part?, List.getElem?_map]
    cases entries[i]? with
    | none => rfl
    | some e =>
      by_cases hkey : e.1 = key
      · simp [redactEntry, hkey]
      · simp [redactEntry, hkey]
  | _ => rfl

theorem part?_redact {step : Step} (h : ¬ IsHidden step) (v : Value) :
    (redact v).part? step = (v.part? step).map redact := by
  cases step with
  | item i => exact part?_redact_item v i
  | entry i key =>
    have hkey : ¬ isSensitiveKey key = true := fun hkey => h ((isSensitiveKey_iff key).mp hkey)
    simp only [part?_redact_entry, if_neg hkey]

theorem part?_redact_of_isHidden {step : Step} (h : IsHidden step) (v : Value) :
    (redact v).part? step = (v.part? step).map fun _ => maskText := by
  cases step with
  | item i => cases h
  | entry i key =>
    simp only [part?_redact_entry, if_pos ((isSensitiveKey_iff key).mpr h)]

/-! ## Places -/

/-- What is shown of a face: a text is masked. -/
def masked : Face → Face
  | .leaf (.text s) => .leaf (.text (redactText s))
  | face => face

theorem face_redact (v : Value) : (redact v).face = masked v.face := by
  cases v with
  | list items =>
    rw [redact, redactItems_eq, Value.face, Value.face, List.length_map]
    rfl
  | object entries =>
    rw [redact, redactEntries_eq, Value.face, Value.face, List.map_map]
    rfl
  | _ => rfl

theorem redactText_redactText (s : String) : redactText (redactText s) = redactText s := by
  rw [redactText, redactText, String.toList_ofList, redactChars_idempotent]

theorem masked_masked (face : Face) : masked (masked face) = masked face := by
  cases face with
  | leaf v =>
    cases v with
    | text s => rw [masked, masked, redactText_redactText]
    | _ => rfl
  | list | object => rfl

/-- What a masked payload shows of a payload. -/
structure Shows (v w : Value) : Prop where
  outside {path : List Step} (h : ∀ step ∈ path, ¬ IsHidden step) :
    w.faceAt path = (v.faceAt path).map masked
  behind {path : List Step} {step : Step} (h : ∀ step ∈ path, ¬ IsHidden step)
    (hstep : IsHidden step) :
    w.faceAt (path ++ [step]) = (v.faceAt (path ++ [step])).map fun _ => maskText.face
  inside {path more : List Step} {step : Step} (h : ∀ step ∈ path, ¬ IsHidden step)
    (hstep : IsHidden step) (hmore : more ≠ []) : w.faceAt (path ++ step :: more) = none

theorem at?_redact {path : List Step} (h : ∀ step ∈ path, ¬ IsHidden step) (v : Value) :
    (redact v).at? path = (v.at? path).map redact := by
  induction path generalizing v with
  | nil => rfl
  | cons step path ih =>
    obtain ⟨hstep, hpath⟩ := List.forall_mem_cons.mp h
    rw [Value.at?, Value.at?, part?_redact hstep, Option.bind_map, Option.map_bind]
    congr 1
    funext w
    exact ih hpath w

/-- The mask has no parts, so a way past a hidden step ends at once or nowhere. -/
theorem at?_redact_behind {path : List Step} {step : Step} (h : ∀ step ∈ path, ¬ IsHidden step)
    (hstep : IsHidden step) (v : Value) (more : List Step) :
    (redact v).at? (path ++ step :: more) =
      (v.at? (path ++ [step])).bind fun _ => maskText.at? more := by
  rw [Value.at?_append, at?_redact h, Value.at?_append]
  cases v.at? path with
  | none => rfl
  | some u =>
    rw [Option.map_some, Option.bind_some, Option.bind_some, Value.at?, Value.at?,
      part?_redact_of_isHidden hstep]
    cases u.part? step with
    | none => rfl
    | some w => rfl

theorem shows_redact (v : Value) : Shows v (redact v) where
  outside {path} h := by
    have hface : Value.face ∘ redact = masked ∘ Value.face := funext face_redact
    rw [Value.faceAt, at?_redact h, Value.faceAt, Option.map_map, Option.map_map, hface]
  behind {path step} h hstep := by
    rw [Value.faceAt, at?_redact_behind h hstep, Value.faceAt]
    cases v.at? (path ++ [step]) with
    | none => rfl
    | some w => rfl
  inside {path more step} h hstep hmore := by
    obtain ⟨next, more, rfl⟩ := List.exists_cons_of_ne_nil hmore
    have hnone : maskText.at? (next :: more) = none := by cases next <;> rfl
    rw [Value.faceAt, at?_redact_behind h hstep, hnone]
    cases v.at? (path ++ [step]) with
    | none => rfl
    | some w => rfl

/-- Each place is outside of what is hidden, at its edge, or further inside. -/
theorem place_cases (path : List Step) :
    (∀ step ∈ path, ¬ IsHidden step) ∨
      ∃ pre step more, path = pre ++ step :: more ∧ (∀ step ∈ pre, ¬ IsHidden step) ∧ IsHidden step := by
  induction path with
  | nil =>
    left
    intro step h
    cases h
  | cons first path ih =>
    by_cases hfirst : IsHidden first
    · right
      exact ⟨[], first, path, rfl, List.forall_mem_nil _, hfirst⟩
    · rcases ih with houtside | ⟨pre, step, more, rfl, hpre, hstep⟩
      · exact .inl (List.forall_mem_cons.mpr ⟨hfirst, houtside⟩)
      · exact .inr ⟨first :: pre, step, more, rfl, List.forall_mem_cons.mpr ⟨hfirst, hpre⟩, hstep⟩

namespace Shows
variable {v w w' : Value}

/-- What is shown of a payload makes up the value. -/
theorem unique (h : Shows v w) (h' : Shows v w') : w = w' := by
  apply Value.eq_of_faceAt
  intro path
  rcases place_cases path with houtside | ⟨pre, step, more, rfl, hpre, hstep⟩
  · rw [h.outside houtside, h'.outside houtside]
  · cases more with
    | nil => rw [h.behind hpre hstep, h'.behind hpre hstep]
    | cons next more =>
      rw [h.inside hpre hstep (List.cons_ne_nil _ _), h'.inside hpre hstep (List.cons_ne_nil _ _)]

/-- What is shown of a payload shows itself. -/
theorem self (h : Shows v w) : Shows w w where
  outside {path} hpath := by
    have hmasked : masked ∘ masked = masked := funext masked_masked
    rw [h.outside hpath, Option.map_map, hmasked]
  behind {path step} hpath hstep := by
    rw [h.behind hpath hstep, Option.map_map]
    rfl
  inside hpath hstep hmore := h.inside hpath hstep hmore

end Shows

/-- The payload that is masked is the one that shows, at each place, what is to be shown: behind a key that
names a secret a mask and nothing inside it, and everywhere else what it showed, with the same number of
items and the same keys, only that texts are masked. Masking it again leaves it as it is. -/
theorem redact_masks_every_place (v : Value) :
    (∀ w, Shows v w ↔ w = redact v) ∧ redact (redact v) = redact v := by
  have hshows := shows_redact v
  refine ⟨fun w => ⟨fun h => h.unique hshows, fun h => h ▸ hshows⟩, ?_⟩
  exact (shows_redact (redact v)).unique hshows.self

example :
    redact (.object [("rows", .list [.object [("Set-Cookie", .list [.text "ab"])], .text "token=cd"])]) =
      .object [("rows", .list [.object [("Set-Cookie", maskText)], .text "token=<redacted>"])] := by rfl

end Courier.Redaction
