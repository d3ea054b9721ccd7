import Courier.Script.Registry
import Mathlib.Data.List.Nodup

/-!
# Calls on a builder

A call on a builder is accepted or refused. An accepted call of a field adds the field behind the others, and
a refused call leaves the builder as it is. Whether the call of a field is accepted depends on its name and
on the names of the fields that were accepted before. So no two fields have the same name, whatever calls
were refused in between.
-/

namespace Courier.Script

namespace Call

/-- The field that a call asks for. It needs a component. -/
def field? : Call → Option Field
  | .field name attributes =>
    (Entries.get? attributes "component").map fun component =>
      Builder.fieldOf (Builder.fieldName name) component attributes
  | _ => none

def placeholder? : Call → Option String
  | .placeholder name => some (normalize name.display)
  | _ => none

end Call

/-- A call that was made, and the failure with which it was refused, if it was. -/
structure Declaration where
  call : Call
  refusal : Option Failure

namespace Declaration

def accepted? : Declaration → Option Call
  | ⟨c, none⟩ => some c
  | ⟨_, some _⟩ => none

def accepted (made : List Declaration) : List Call :=
  made.filterMap accepted?

/-- The fields of the accepted calls, in the order of the calls. -/
def fields (made : List Declaration) : List Field :=
  (accepted made).filterMap Call.field?

def placeholders (made : List Declaration) : List String :=
  made.filterMap fun d => d.call.placeholder?

theorem accepted_cons (c : Call) (made : List Declaration) :
    accepted (⟨c, none⟩ :: made) = c :: accepted made := rfl

theorem fields_cons (c : Call) (made : List Declaration) :
    fields (⟨c, none⟩ :: made) = c.field?.toList ++ fields made := by
  simp only [fields, accepted_cons, List.filterMap_eq_flatMap_toList, List.flatMap_cons]

theorem placeholders_cons (d : Declaration) (made : List Declaration) :
    placeholders (d :: made) = d.call.placeholder?.toList ++ placeholders made := by
  simp only [placeholders, List.filterMap_eq_flatMap_toList, List.flatMap_cons]

end Declaration

/-- Fields that can be told apart by their names. -/
structure WellNamed (fields : List Field) : Prop where
  distinct : (fields.map (·.name)).Nodup
  named : ∀ f ∈ fields, f.name ≠ ""

theorem WellNamed.concat {fields : List Field} (h : WellNamed fields) {f : Field} (hname : f.name ≠ "")
    (hnew : f.name ∉ fields.map (·.name)) : WellNamed (fields ++ [f]) where
  distinct := by
    rw [List.map_append, List.map_singleton, ← List.concat_eq_append]
    exact h.distinct.concat hnew
  named g hg := by
    rcases List.mem_append.mp hg with hg | hg
    · exact h.named g hg
    · obtain rfl := List.mem_singleton.mp hg
      exact hname

namespace Builder

variable {kind : Kind} {b b' : Builder} {c : Call}

/-! ## One call -/

section addField
variable {name : Value} {attributes : Entries}

theorem addField_eq_ok (h : b.addField name attributes = .ok b') :
    b' = { b with fields := b.fields ++ (Call.field name attributes).field?.toList } := by
  rw [addField] at h
  split at h
  · cases h
  · rename_i component hcomponent
    dsimp only at h
    split at h
    · cases h
    · split at h
      · cases h
      · cases h
        rw [Call.field?, hcomponent]
        rfl

end addField

/-- What an accepted call adds to the fields and the placeholders of a builder. -/
structure Gains (b : Builder) (c : Call) (b' : Builder) : Prop where
  owner : b'.owner = b.owner
  fields : b'.fields = b.fields ++ c.field?.toList
  placeholders : b'.placeholders = b.placeholders ++ c.placeholder?.toList

theorem gains_nothing (howner : b'.owner = b.owner) (hfields : b'.fields = b.fields)
    (hplaceholders : b'.placeholders = b.placeholders) (hfield : c.field? = none)
    (hplaceholder : c.placeholder? = none) : Gains b c b' where
  owner := howner
  fields := by rw [hfields, hfield, Option.toList_none, List.append_nil]
  placeholders := by rw [hplaceholders, hplaceholder, Option.toList_none, List.append_nil]

theorem gains_of_map {α : Type} {x : Except Failure α} {next : α → Builder} (h : x.map next = .ok b')
    (hnext : ∀ v, Gains b c (next v)) : Gains b c b' := by
  cases x with
  | error f => cases h
  | ok v =>
    cases h
    exact hnext v

theorem gains_perform (h : b.perform kind c = .ok b') : Gains b c b' := by
  cases c with
  | field name attributes =>
    rw [addField_eq_ok h]
    exact ⟨rfl, rfl, (List.append_nil _).symm⟩
  | version number =>
    cases kind with
    | trigger => cases h
    | script => exact gains_of_map h fun _ => gains_nothing rfl rfl rfl rfl rfl
  | forceTrigger trigger state =>
    cases kind with
    | trigger => cases h
    | script => exact gains_of_map h fun _ => gains_nothing rfl rfl rfl rfl rfl
  | placeholder name =>
    cases kind with
    | trigger => cases h
    | script =>
      cases h
      exact ⟨rfl, (List.append_nil _).symm, rfl⟩
  | triggers | run | onReset =>
    cases kind with
    | trigger => cases h
    | script =>
      cases h
      exact gains_nothing rfl rfl rfl rfl rfl

/-- A script takes every placeholder. -/
theorem placeholder?_of_refused {f : Failure} (h : b.perform .script c = .error f) :
    c.placeholder? = none := by
  cases c with
  | placeholder name => cases h
  | _ => rfl

/-- The calls change the builder one after another; a refused one leaves it as it is. -/
inductive Passes (kind : Kind) : Builder → List Declaration → Builder → Prop where
  | nil (b : Builder) : Passes kind b [] b
  | accepted {c : Call} {b b' b'' : Builder} {made : List Declaration}
    (hcall : b.perform kind c = .ok b') (hrest : Passes kind b' made b'') :
    Passes kind b (⟨c, none⟩ :: made) b''
  | refused {c : Call} {f : Failure} {b b'' : Builder} {made : List Declaration}
    (hcall : b.perform kind c = .error f) (hrest : Passes kind b made b'') :
    Passes kind b (⟨c, some f⟩ :: made) b''

namespace Passes

variable {made : List Declaration}

theorem owner (h : Passes kind b made b') : b'.owner = b.owner := by
  induction h with
  | nil => rfl
  | accepted hcall _ ih => exact ih.trans (gains_perform hcall).owner
  | refused _ _ ih => exact ih

theorem fields (h : Passes kind b made b') : b'.fields = b.fields ++ Declaration.fields made := by
  induction h with
  | nil b => exact (List.append_nil b.fields).symm
  | accepted hcall _ ih =>
    rw [ih, (gains_perform hcall).fields, Declaration.fields_cons, List.append_assoc]
  | refused _ _ ih => exact ih

theorem placeholders (h : Passes .script b made b') :
    b'.placeholders = b.placeholders ++ Declaration.placeholders made := by
  induction h with
  | nil b => exact (List.append_nil b.placeholders).symm
  | accepted hcall _ ih =>
    rw [ih, (gains_perform hcall).placeholders, Declaration.placeholders_cons, List.append_assoc]
  | refused hcall _ ih =>
    rw [ih, Declaration.placeholders_cons, placeholder?_of_refused hcall, Option.toList_none,
      List.nil_append]

end Passes

end Builder

end Courier.Script
