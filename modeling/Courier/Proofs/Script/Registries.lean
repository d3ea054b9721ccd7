import Courier.Proofs.Script.Builders
import Courier.Proofs.Script.Names
import Courier.Proofs.Value.Entries

/-!
# What registries hold

A block of declarations may add other definitions to the registry on its way, and may go on after an add
that failed. `Leads` and `Adds` say which adds complete, in the order in which they do, without looking at
the registry. The registry is then what these leave: of the definitions that were published under one
name, in whatever spelling, it holds the last one.
-/

namespace Courier.Script

/-- What the definitions of a registry are: how they are built, and what they are called. -/
structure Species (α : Type) where
  kind : Kind
  build : Builder → α
  nameOf : α → String
  nameOf_build : ∀ b, nameOf (build b) = b.owner

namespace Species

def scripts : Species Published where
  kind := .script
  build := Builder.script
  nameOf s := s.definition.name
  nameOf_build _ := rfl

def triggers : Species Trigger where
  kind := .trigger
  build := Builder.trigger
  nameOf := Trigger.name
  nameOf_build _ := rfl

end Species

/-- An add that completed: the name that it was given, and the definition that it published. -/
structure Publication (α : Type) where
  name : Value
  definition : α

variable {α : Type}

namespace Publication

def key (p : Publication α) : String :=
  normalize p.name.display

theorem normalize_key (p : Publication α) : normalize p.key = p.key := by
  rw [key, normalize_normalize]

end Publication

/-! ## Which adds complete -/

mutual

/-- A block that goes on from a builder comes to an outcome, and these are the adds that complete on its
way. -/
inductive Leads (σ : Species α) :
    Block → Builder → Except Failure Builder → List (Publication α) → Prop where
  | finish (b : Builder) : Leads σ .finish b (.ok b) []
  | fail (f : Failure) (b : Builder) : Leads σ (.fail f) b (.error f) []
  | accepted {c : Call} {next : Option Failure → Block} {b b' : Builder}
    {outcome : Except Failure Builder} {ps : List (Publication α)}
    (hcall : b.perform σ.kind c = .ok b') (hrest : Leads σ (next none) b' outcome ps) :
    Leads σ (.call c next) b outcome ps
  | refused {c : Call} {next : Option Failure → Block} {b : Builder} {f : Failure}
    {outcome : Except Failure Builder} {ps : List (Publication α)}
    (hcall : b.perform σ.kind c = .error f) (hrest : Leads σ (next (some f)) b outcome ps) :
    Leads σ (.call c next) b outcome ps
  | add {name : Value} {block : Block} {next : Option Failure → Block} {b : Builder}
    {result : Except Failure α} {outcome : Except Failure Builder} {ps qs : List (Publication α)}
    (hadd : Adds σ name block result ps)
    (hrest : Leads σ (next (Registry.failure? result)) b outcome qs) :
    Leads σ (.add name block next) b outcome (ps ++ qs)

/-- An add comes to a result, and these are the adds that complete until then, itself the last one. -/
inductive Adds (σ : Species α) :
    Value → Block → Except Failure α → List (Publication α) → Prop where
  | unnamed {name : Value} {block : Block} (hname : normalize name.display = "") :
    Adds σ name block (.error (.nameRequired σ.kind.name)) []
  | raised {name : Value} {block : Block} {f : Failure} {nested : List (Publication α)}
    (hname : normalize name.display ≠ "")
    (hblock : Leads σ block (.start (normalize name.display)) (.error f) nested) :
    Adds σ name block (.error f) nested
  | completed {name : Value} {block : Block} {b : Builder} {nested : List (Publication α)}
    (hname : normalize name.display ≠ "")
    (hblock : Leads σ block (.start (normalize name.display)) (.ok b) nested) :
    Adds σ name block (.ok (σ.build b)) (nested ++ [⟨name, σ.build b⟩])

end

/-- The adds that complete while some are called one after another, nested ones among them. -/
inductive Completes (σ : Species α) : List (Value × Block) → List (Publication α) → Prop where
  | nil : Completes σ [] []
  | cons {name : Value} {block : Block} {adds : List (Value × Block)} {result : Except Failure α}
    {ps qs : List (Publication α)} (hadd : Adds σ name block result ps)
    (hrest : Completes σ adds qs) : Completes σ ((name, block) :: adds) (ps ++ qs)

namespace Registry

/-! ## Publishing -/

/-- The registry after several definitions were published. -/
def publishAll (r : Registry α) (ps : List (Publication α)) : Registry α :=
  ps.foldl (fun r p => r.publish p.key p.definition) r

theorem publishAll_append (r : Registry α) (ps qs : List (Publication α)) :
    r.publishAll (ps ++ qs) = (r.publishAll ps).publishAll qs :=
  List.foldl_append

theorem kind_publishAll (r : Registry α) (ps : List (Publication α)) :
    (r.publishAll ps).kind = r.kind := by
  induction ps generalizing r with
  | nil => rfl
  | cons p ps ih => exact ih (r.publish p.key p.definition)

/-- No name comes twice, and each definition is under the name that it has, as it is compared. -/
structure Tidy (σ : Species α) (r : Registry α) : Prop where
  distinct : (r.definitions.map (·.1)).Nodup
  named : ∀ e ∈ r.definitions, σ.nameOf e.2 = e.1 ∧ normalize e.1 = e.1

theorem tidy_empty (σ : Species α) : (empty σ.kind : Registry α).Tidy σ :=
  ⟨List.nodup_nil, fun _ h => absurd h List.not_mem_nil⟩

theorem Tidy.publish {σ : Species α} {r : Registry α} (h : r.Tidy σ) {p : Publication α}
    (hp : σ.nameOf p.definition = p.key) : (r.publish p.key p.definition).Tidy σ where
  distinct := Entries.nodup_insert _ h.distinct
  named e he := by
    rcases Entries.mem_insert he with rfl | he
    · exact ⟨hp, p.normalize_key⟩
    · exact h.named e he

theorem Tidy.publishAll {σ : Species α} {r : Registry α} (h : r.Tidy σ)
    {ps : List (Publication α)} (hps : ∀ p ∈ ps, σ.nameOf p.definition = p.key) :
    (r.publishAll ps).Tidy σ := by
  induction ps generalizing r with
  | nil => exact h
  | cons p ps ih =>
    exact ih (h.publish (hps p List.mem_cons_self)) fun q hq => hps q (List.mem_cons_of_mem _ hq)

/-! ## Blocks and adds -/

/-- What a block leaves behind, by the adds that complete on its way. -/
structure Follows (σ : Species α) (block : Block) (b : Builder) (r : Registry α)
    (ps : List (Publication α)) : Prop where
  leads : Leads σ block b (runBlock σ.build block b r).outcome ps
  registry : (runBlock σ.build block b r).registry = r.publishAll ps
  owner : ∀ b', (runBlock σ.build block b r).outcome = .ok b' → b'.owner = b.owner
  named : ∀ p ∈ ps, σ.nameOf p.definition = p.key

/-- What an add leaves behind, in the same way. -/
structure Adding (σ : Species α) (name : Value) (block : Block) (r : Registry α)
    (ps : List (Publication α)) : Prop where
  adds : Adds σ name block (r.add σ.build name block).outcome ps
  registry : (r.add σ.build name block).registry = r.publishAll ps
  named : ∀ p ∈ ps, σ.nameOf p.definition = p.key

section run
variable {σ : Species α} {r : Registry α} (hr : r.kind = σ.kind)
include hr

theorem Adding.kind {name : Value} {block : Block} {ps : List (Publication α)}
    (h : Adding σ name block r ps) : (r.add σ.build name block).registry.kind = σ.kind := by
  rw [h.registry, kind_publishAll, hr]

theorem runBlock_accepted {c : Call} (next : Option Failure → Block) {b b' : Builder}
    (hcall : b.perform σ.kind c = .ok b') :
    runBlock σ.build (.call c next) b r = runBlock σ.build (next none) b' r := by
  rw [runBlock, hr, hcall]

theorem runBlock_refused {c : Call} (next : Option Failure → Block) {b : Builder} {f : Failure}
    (hcall : b.perform σ.kind c = .error f) :
    runBlock σ.build (.call c next) b r = runBlock σ.build (next (some f)) b r := by
  rw [runBlock, hr, hcall]

theorem add_unnamed {name : Value} (block : Block) (hname : normalize name.display = "") :
    r.add σ.build name block = ⟨.error (.nameRequired σ.kind.name), r, []⟩ := by
  rw [add, if_pos (by simp [hname]), hr]

omit hr in
theorem add_named {name : Value} (block : Block) (hname : normalize name.display ≠ "") :
    r.add σ.build name block = publishBuilt σ.build (normalize name.display)
      (runBlock σ.build block (.start (normalize name.display)) r) := by
  rw [add, if_neg (by simpa using hname)]

theorem adding_of_follows (name : Value) {block : Block}
    (h : ∃ nested, Follows σ block (.start (normalize name.display)) r nested) :
    ∃ ps, Adding σ name block r ps := by
  by_cases hname : normalize name.display = ""
  · refine ⟨[], ?_, ?_, fun p hp => absurd hp List.not_mem_nil⟩
    · rw [add_unnamed hr block hname]
      exact .unnamed hname
    · rw [add_unnamed hr block hname]
      rfl
  · obtain ⟨nested, hleads, hregistry, howner, hnamed⟩ := h
    have hadd := add_named (σ := σ) (r := r) block hname
    generalize runBlock σ.build block (.start (normalize name.display)) r = built at *
    obtain ⟨outcome, registry, journal⟩ := built
    cases outcome with
    | error f =>
      refine ⟨nested, ?_, ?_, hnamed⟩
      · rw [hadd]
        exact .raised hname hleads
      · rw [hadd]
        exact hregistry
    | ok b =>
      refine ⟨nested ++ [⟨name, σ.build b⟩], ?_, ?_, ?_⟩
      · rw [hadd]
        exact .completed hname hleads
      · rw [hadd, publishAll_append, ← hregistry]
        rfl
      · intro p hp
        rcases List.mem_append.mp hp with hp | hp
        · exact hnamed p hp
        · obtain rfl := List.mem_singleton.mp hp
          exact (σ.nameOf_build b).trans (howner b rfl)

end run

theorem runBlock_add (build : Builder → α) (name : Value) (block : Block)
    (next : Option Failure → Block) (b : Builder) (r : Registry α) :
    runBlock build (.add name block next) b r =
      let added := r.add build name block
      let rest := runBlock build (next (failure? added.outcome)) b added.registry
      { rest with journal := added.journal ++ rest.journal } := by
  simp only [runBlock, add]

/-- The adds that complete on the way of a block make the registry that it leaves. -/
theorem exists_follows {σ : Species α} (block : Block) (b : Builder) {r : Registry α}
    (hr : r.kind = σ.kind) : ∃ ps, Follows σ block b r ps := by
  induction block generalizing b r with
  | finish =>
    refine ⟨[], .finish b, rfl, fun b' h => ?_, fun p hp => absurd hp List.not_mem_nil⟩
    cases h
    rfl
  | fail f =>
    refine ⟨[], .fail f b, rfl, fun b' h => ?_, fun p hp => absurd hp List.not_mem_nil⟩
    cases h
  | call c next ih =>
    cases hcall : b.perform σ.kind c with
    | ok b' =>
      obtain ⟨ps, hleads, hregistry, howner, hnamed⟩ := ih none b' hr
      have hrun := runBlock_accepted hr next hcall
      refine ⟨ps, ?_, ?_, ?_, hnamed⟩
      · rw [hrun]
        exact .accepted hcall hleads
      · rw [hrun, hregistry]
      · rw [hrun]
        exact fun b'' h => (howner b'' h).trans (Builder.gains_perform hcall).owner
    | error f =>
      obtain ⟨ps, hleads, hregistry, howner, hnamed⟩ := ih (some f) b hr
      have hrun := runBlock_refused hr next hcall
      refine ⟨ps, ?_, ?_, ?_, hnamed⟩
      · rw [hrun]
        exact .refused hcall hleads
      · rw [hrun, hregistry]
      · rw [hrun]
        exact howner
  | add name block next ihblock ihnext =>
    -- The inner block runs in the registry as it is; what comes later finds the one that it leaves.
    obtain ⟨ps, hadding⟩ := adding_of_follows hr name (ihblock (.start (normalize name.display)) hr)
    have hkind := hadding.kind hr
    obtain ⟨hadds, hadd, hps⟩ := hadding
    obtain ⟨qs, hleads, hregistry, howner, hqs⟩ :=
      ihnext (failure? (r.add σ.build name block).outcome) b hkind
    have hrun := runBlock_add σ.build name block next b r
    refine ⟨ps ++ qs, ?_, ?_, ?_, fun p hp => (List.mem_append.mp hp).elim (hps p) (hqs p)⟩
    · rw [hrun]
      exact .add hadds hleads
    · rw [hrun, publishAll_append, ← hadd]
      exact hregistry
    · rw [hrun]
      exact howner

theorem exists_adding {σ : Species α} (name : Value) (block : Block) {r : Registry α}
    (hr : r.kind = σ.kind) : ∃ ps, Adding σ name block r ps :=
  adding_of_follows hr name (exists_follows block _ hr)

/-! ## Registries that were filled by adds -/

/-- The registry after adds that were called one after another. -/
def after (σ : Species α) (r : Registry α) (adds : List (Value × Block)) : Registry α :=
  adds.foldl (fun r e => (r.add σ.build e.1 e.2).registry) r

theorem after_cons (σ : Species α) (r : Registry α) (name : Value) (block : Block)
    (adds : List (Value × Block)) :
    r.after σ ((name, block) :: adds) = (r.add σ.build name block).registry.after σ adds := by
  rw [after, List.foldl_cons, after]

def ofAdds (σ : Species α) (adds : List (Value × Block)) : Registry α :=
  (empty σ.kind).after σ adds

theorem exists_completes {σ : Species α} {r : Registry α} (hr : r.kind = σ.kind)
    (adds : List (Value × Block)) :
    ∃ ps, Completes σ adds ps ∧ r.after σ adds = r.publishAll ps ∧
      ∀ p ∈ ps, σ.nameOf p.definition = p.key := by
  induction adds generalizing r with
  | nil => exact ⟨[], .nil, rfl, fun p hp => absurd hp List.not_mem_nil⟩
  | cons e adds ih =>
    obtain ⟨name, block⟩ := e
    obtain ⟨ps, hadding⟩ := exists_adding name block hr
    have hkind := hadding.kind hr
    obtain ⟨hadds, hadd, hps⟩ := hadding
    obtain ⟨qs, hcompletes, hregistry, hqs⟩ := ih hkind
    refine ⟨ps ++ qs, .cons hadds hcompletes, ?_,
      fun p hp => (List.mem_append.mp hp).elim (hps p) (hqs p)⟩
    rw [after_cons, publishAll_append, ← hadd, hregistry]

theorem ofAdds_completes (σ : Species α) (adds : List (Value × Block)) :
    ∃ completed, Completes σ adds completed ∧ ofAdds σ adds = (empty σ.kind).publishAll completed ∧
      ∀ p ∈ completed, σ.nameOf p.definition = p.key :=
  exists_completes rfl adds

theorem kind_ofAdds (σ : Species α) (adds : List (Value × Block)) :
    (ofAdds σ adds).kind = σ.kind := by
  obtain ⟨completed, -, hregistry, -⟩ := ofAdds_completes σ adds
  rw [hregistry, kind_publishAll, empty]

theorem tidy_ofAdds (σ : Species α) (adds : List (Value × Block)) : (ofAdds σ adds).Tidy σ := by
  obtain ⟨completed, -, hregistry, hnamed⟩ := ofAdds_completes σ adds
  rw [hregistry]
  exact (tidy_empty σ).publishAll hnamed

/-! ## Looking names up -/

theorem get_eq_ok_iff {r : Registry α} {name : String} {d : α} :
    r.get name = .ok d ↔ r.get? name = some d := by
  rw [get]
  cases r.get? name with
  | some d' => simp
  | none => simp

theorem isSome_get?_iff {r : Registry α} {name : String} :
    (r.get? name).isSome = true ↔ ∃ d, r.get name = .ok d := by
  rw [Option.isSome_iff_exists]
  exact exists_congr fun d => get_eq_ok_iff.symm

theorem eq_of_get_eq_error {r : Registry α} {name : String} {f : Failure} (h : r.get name = .error f) :
    f = .notRegistered r.kind.name name := by
  rw [get] at h
  split at h
  · cases h
  · cases h
    rfl

theorem exists_mem_of_get? {r : Registry α} {name : String} {d : α} (h : r.get? name = some d) :
    ∃ e ∈ r.definitions, e.1 = normalize name ∧ e.2 = d := by
  rw [get?, Entries.get?, Option.map_eq_some_iff] at h
  obtain ⟨e, he, rfl⟩ := h
  exact ⟨e, List.mem_of_find?_eq_some he, by simpa using List.find?_some he, rfl⟩

/-- What is found has the name under which it is found, as it is compared. -/
theorem Tidy.nameOf_get {σ : Species α} {r : Registry α} (h : r.Tidy σ) {name : String} {d : α}
    (hd : r.get name = .ok d) : σ.nameOf d = normalize name := by
  obtain ⟨e, he, hname, rfl⟩ := exists_mem_of_get? (get_eq_ok_iff.mp hd)
  rw [← hname]
  exact (h.named e he).1

/-- What a block added stays when the block fails. -/
example : (ofAdds .scripts [(.text "login", .add (.text " Logout ") .finish fun _ =>
    .fail .noHookRunning)]).definitions.map (·.1) = ["logout"] := by
  decide +kernel

end Registry

end Courier.Script
