import Courier.Proofs.Script.Firing

/-!
# The fields that go with a trigger

A firing compares names of triggers without regard to case and blanks around them, but the fields of a
script are found by a trigger as it is spelled. The spelling that a hook is told is the one of its
automation, or of its script if that is bound to a trigger. So the fields for it are those that go with
the trigger that fired exactly if no field is bound to this trigger in another spelling.
-/

namespace Courier.Script

namespace Field

/-- Whether a field is bound to no trigger, or to the one that has a name when names are compared. -/
def appliesTo (key : String) (f : Field) : Bool :=
  match f.triggerable with
  | .null => true
  | .text s => normalize s == key
  | _ => false

variable {f : Field} {key spelling : String}

theorem belongsTo_iff :
    f.belongsTo (some spelling) = true ↔ f.triggerable = .null ∨ f.triggerable = .text spelling := by
  rw [belongsTo]
  cases f.triggerable with
  | null => simp
  | text s =>
    simp only [beq_iff_eq, Option.some.injEq, reduceCtorEq, false_or, Value.text.injEq]
    exact eq_comm
  | _ => simp

theorem appliesTo_iff :
    f.appliesTo key = true ↔
      f.triggerable = .null ∨ ∃ s, f.triggerable = .text s ∧ normalize s = key := by
  rw [appliesTo]
  cases f.triggerable with
  | null => simp
  | text s => simp
  | _ => simp

theorem appliesTo_of_belongsTo (hspelling : normalize spelling = key)
    (h : f.belongsTo (some spelling) = true) : f.appliesTo key = true := by
  rw [appliesTo_iff]
  rcases belongsTo_iff.mp h with h | h
  · exact .inl h
  · exact .inr ⟨spelling, h, hspelling⟩

/-- A spelling of a trigger finds a field that goes with the trigger unless the field has another one. -/
theorem belongsTo_eq_appliesTo_iff (hspelling : normalize spelling = key) :
    f.belongsTo (some spelling) = f.appliesTo key ↔
      ∀ s, f.triggerable = .text s → normalize s = key → s = spelling := by
  constructor
  · intro h s hs hkey
    have happlies : f.appliesTo key = true := appliesTo_iff.mpr (.inr ⟨s, hs, hkey⟩)
    rcases belongsTo_iff.mp (h.trans happlies) with hnull | htext
    · cases hs.symm.trans hnull
    · exact Value.text.inj (hs.symm.trans htext)
  · intro h
    refine Bool.eq_iff_iff.mpr ⟨appliesTo_of_belongsTo hspelling, fun happlies => ?_⟩
    rw [belongsTo_iff]
    rcases appliesTo_iff.mp happlies with hnull | ⟨s, hs, hkey⟩
    · exact .inl hnull
    · rw [← h s hs hkey]
      exact .inr hs

/-- Two spellings find the same of a field unless it is bound to one of them. -/
theorem belongsTo_eq_belongsTo_iff {x y : String} (hne : x ≠ y) :
    f.belongsTo (some x) = f.belongsTo (some y) ↔ f.triggerable ≠ .text x ∧ f.triggerable ≠ .text y := by
  rw [Bool.eq_iff_iff, belongsTo_iff, belongsTo_iff]
  by_cases hx : f.triggerable = .text x
  · simp [hx, hne]
  · by_cases hy : f.triggerable = .text y
    · simp [hy, hne.symm]
    · simp [hx, hy]

end Field

theorem filter_eq_filter_iff {α : Type} {p q : α → Bool} {l : List α} :
    l.filter p = l.filter q ↔ ∀ a ∈ l, p a = q a := by
  refine ⟨fun h a ha => Bool.eq_iff_iff.mpr ?_, List.filter_congr⟩
  have hmem : a ∈ l.filter p ↔ a ∈ l.filter q := by rw [h]
  simpa [ha] using hmem

namespace Definition

variable (d : Definition) {key spelling : String}

theorem fieldsFor_sublist (hspelling : normalize spelling = key) :
    (d.fieldsFor (some spelling)).Sublist (d.fields.filter (Field.appliesTo key)) :=
  List.monotone_filter_right d.fields fun _ => Field.appliesTo_of_belongsTo hspelling

theorem fieldsFor_eq_iff (hspelling : normalize spelling = key) :
    d.fieldsFor (some spelling) = d.fields.filter (Field.appliesTo key) ↔
      ∀ f ∈ d.fields, ∀ s, f.triggerable = .text s → normalize s = key → s = spelling := by
  rw [fieldsFor, filter_eq_filter_iff]
  exact forall₂_congr fun _ _ => Field.belongsTo_eq_appliesTo_iff hspelling

theorem fieldsFor_eq_fieldsFor_iff (x y : String) :
    d.fieldsFor (some x) = d.fieldsFor (some y) ↔
      x = y ∨ ∀ f ∈ d.fields, f.triggerable ≠ .text x ∧ f.triggerable ≠ .text y := by
  by_cases hxy : x = y
  · simp [hxy]
  · rw [fieldsFor, fieldsFor, filter_eq_filter_iff, or_iff_right hxy]
    exact forall₂_congr fun _ _ => Field.belongsTo_eq_belongsTo_iff hxy

end Definition

namespace Runner

variable {runner : Runner} {depth : Nat} {w : Surroundings Desk} {name traceId : String}
  {payload : Entries} {a : Automation} {script : Published} {calls : Nat} {s : Session}

theorem hears_iff {trigger : Option String} :
    hears name trigger = true ↔ ∃ spelling, trigger = some spelling ∧ normalize spelling = normalize name := by
  cases trigger <;> simp [hears]

/-- The hook of an automation that a firing selects is told a spelling of the trigger that fired. -/
theorem exists_spelling (hscript : runner.scripts.get? a.script = some script)
    (hselects : runner.selects name a = true) (payload : Entries) (traceId : String) :
    ∃ spelling, (contextOf a script.definition payload traceId).trigger = some spelling ∧
      normalize spelling = normalize name := by
  rw [selects, hscript] at hselects
  exact hears_iff.mp (Bool.and_eq_true_iff.mp hselects).1

/-- A firing that selects an automation runs the hook of its script. -/
theorem Takes.eq_scripted {turn : Turn} (h : runner.Takes depth w name traceId payload a calls s turn)
    (hscript : runner.scripts.get? a.script = some script) (hselects : runner.selects name a = true) :
    turn = (runner.scripted depth w traceId payload a script calls s).map some := by
  cases h with
  | runs hscript' =>
    obtain rfl := Option.some.inj (hscript.symm.trans hscript')
    rfl
  | refuses hscript' _ haccepts =>
    simp only [selects, hscript', haccepts, Bool.and_false] at hselects
    cases hselects
  | misses hscript' => cases hscript.symm.trans hscript'
  | passes hhears =>
    rw [selects_eq_false hhears] at hselects
    cases hselects

/-- When a firing runs the hook of an automation, the trigger in the context of the hook is a spelling of
the one that fired. The fields of the script for it go with the trigger that fired, in their order, and
those that are bound to no trigger are among them. They are all the fields that go with it exactly if no
field is bound to it in another spelling. The fields for two texts, spellings of one trigger or not, are
the same exactly if the texts are, or no field is bound to either. -/
theorem fields_follow_firing_iff (scripts triggers : List (Value × Block)) (depth : Nat)
    (w : Surroundings Desk) (name traceId : String) (payload : Entries) (a : Automation) {t : Trigger}
    {script : Published} (hget : (ofAdds scripts triggers).triggers.get name = .ok t)
    (hscript : (ofAdds scripts triggers).scripts.get? a.script = some script)
    (hselects : (ofAdds scripts triggers).selects name a = true) :
    let runner := ofAdds scripts triggers
    let d := script.definition
    let c := contextOf a d payload traceId
    let applying := d.fields.filter (Field.appliesTo t.name)
    (∀ calls s turn, runner.Takes depth w name traceId payload a calls s turn →
      turn = (runner.scripted depth w traceId payload a script calls s).map some) ∧
    (d.fieldsFor c.trigger).Sublist applying ∧
    (∀ f ∈ d.fields, f.triggerable = .null → f ∈ d.fieldsFor c.trigger) ∧
    (∃ spelling, c.trigger = some spelling ∧ normalize spelling = t.name ∧
      (d.fieldsFor c.trigger = applying ↔
        ∀ f ∈ d.fields, ∀ s, f.triggerable = .text s → normalize s = t.name → s = spelling)) ∧
    ∀ x y, d.fieldsFor (some x) = d.fieldsFor (some y) ↔
      x = y ∨ ∀ f ∈ d.fields, f.triggerable ≠ .text x ∧ f.triggerable ≠ .text y := by
  intro runner d c applying
  have ht : t.name = normalize name := (Registry.tidy_ofAdds .triggers triggers).nameOf_get hget
  obtain ⟨spelling, hspelling, hname⟩ := exists_spelling hscript hselects payload traceId
  have hc : c.trigger = some spelling := hspelling
  rw [← ht] at hname
  refine ⟨fun calls s turn hturn => hturn.eq_scripted hscript hselects, ?_, fun f hf hnull => ?_,
    ⟨spelling, hc, hname, ?_⟩, d.fieldsFor_eq_fieldsFor_iff⟩
  · rw [hc]
    exact d.fieldsFor_sublist hname
  · rw [hc]
    exact List.mem_filter.mpr ⟨hf, Field.belongsTo_iff.mpr (.inl hnull)⟩
  · rw [hc]
    exact d.fieldsFor_eq_iff hname

/-- A script with two fields for all triggers, and one that is bound to a trigger. -/
def petScripts : List (Value × Block) :=
  [(.text "pets", .ofCalls
    [.field (.text "cat") [("component", .text "text")],
      .field (.text "dog") [("component", .text "text")],
      .field (.text "bird") [("component", .text "text"), ("triggerable", .text "recurring")]])]

def petTriggers : List (Value × Block) :=
  [(.text "recurring", .finish)]

/-- An automation of the script, with the trigger as it spells it. -/
def petAutomation (spelling : String) : Automation :=
  ⟨.int 1, "pets", some spelling, [], []⟩

theorem fields_follow_firing_iff_pets :
    let runner := ofAdds petScripts petTriggers
    let a := petAutomation "recurring"
    ∃ t script, runner.triggers.get " Recurring" = .ok t ∧ runner.scripts.get? a.script = some script ∧
      runner.selects " Recurring" a = true ∧
      script.definition.fieldsFor (contextOf a script.definition [] "t").trigger =
        script.definition.fields.filter (Field.appliesTo t.name) := by
  intro runner a
  have hregistered : (runner.triggers.get? " Recurring").isSome = true := by decide +kernel
  obtain ⟨t, ht⟩ := Registry.isSome_get?_iff.mp hregistered
  have hpublished : (runner.scripts.get? a.script).isSome = true := by decide +kernel
  obtain ⟨script, hscript⟩ := Option.isSome_iff_exists.mp hpublished
  have hselects : runner.selects " Recurring" a = true := by decide +kernel
  refine ⟨t, script, ht, hscript, hselects, ?_⟩
  obtain ⟨-, -, -, ⟨spelling, hspelling, -, hiff⟩, -⟩ := fields_follow_firing_iff petScripts petTriggers 0
    ⟨fun _ _ => .ok "1", fun _ d => d⟩ " Recurring" "t" [] a ht hscript hselects
  refine hiff.mpr fun f hf s hs _ => ?_
  have hbound : ((runner.scripts.get? a.script).all fun script =>
      (contextOf a script.definition [] "t").trigger == some "recurring" &&
        script.definition.fields.all (Field.belongsTo (some "recurring"))) = true := by
    decide +kernel
  rw [hscript, Option.all_some, hspelling, Bool.and_eq_true_iff, beq_iff_eq] at hbound
  obtain ⟨hrecurring, hall⟩ := hbound
  rcases Field.belongsTo_iff.mp (List.all_eq_true.mp hall f hf) with hnull | htext
  · cases hs.symm.trans hnull
  · rw [Option.some.inj hrecurring]
    exact Value.text.inj (hs.symm.trans htext)

/-- A firing selects an automation that spells the trigger with a capital letter, and the field that is
bound to the trigger is not among those for its context. -/
theorem other_spelling_misses_field :
    let runner := ofAdds petScripts petTriggers
    let a := petAutomation "Recurring"
    (runner.triggers.get? "recurring").map (·.name) = some "recurring" ∧
      runner.selects "recurring" a = true ∧
      (runner.scripts.get? a.script).map (fun script =>
        let d := script.definition
        ((d.fieldsFor (contextOf a d [] "t").trigger).map (·.name),
          (d.fields.filter (Field.appliesTo "recurring")).map (·.name))) =
        some (["cat", "dog"], ["cat", "dog", "bird"]) := by
  decide +kernel

end Runner

end Courier.Script
