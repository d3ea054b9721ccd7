import Courier.Proofs.Calendar.Reading
import Courier.Proofs.Json.RoundTrip
import Courier.Proofs.Template.Arguments
import Courier.Report.Endpoint

/-!
# Report tokens that were written

A report token is written from the name of a report and a list of filters, with spaces between them.
Rendering it puts one query to the source, with the name in small letters and these filters; and the
request for it has one parameter for each of them.
-/

namespace Courier.Report

/-! ## Filters -/

inductive Filter where
  | day (name : String) (date : Calendar.Date)
  | word (name value : String)
deriving DecidableEq

namespace Filter

def name : Filter → String
  | day name _ | word name _ => name

/-- The filter as an entry of a query. -/
def entry : Filter → String × Value
  | day name date => (name, .date date)
  | word name value => (name, .text value)

/-- The filter as it is written in a token. -/
def chars : Filter → List Char
  | day name date => name.toList ++ '=' :: date.isoText.toList
  | word name value => name.toList ++ '=' :: value.toList

/-- The filter as a parameter of a request. -/
def parameter : Filter → String × String
  | day name date => (name, date.isoText)
  | word name value => ("filters[" ++ name ++ "]", value)

end Filter

/-- The value of a filter by date is a date, and that of any other one a text. -/
def Filter.HasKind : Filter → Prop
  | day name _ => name ∈ dateFilters
  | word name value => name ∉ dateFilters ∧ IsWritten value

instance : (f : Filter) → Decidable f.HasKind
  | .day name _ => inferInstanceAs (Decidable (name ∈ dateFilters))
  | .word name value => inferInstanceAs (Decidable (name ∉ dateFilters ∧ IsWritten value))

/-- A filter that can be written: its name is in small letters and no part of it ends it too early. -/
structure Filter.Writable (f : Filter) : Prop where
  name : IsWritten f.name
  small : Text.lower f.name = f.name
  no_equals : '=' ∉ f.name.toList
  kind : f.HasKind

instance (f : Filter) : Decidable f.Writable :=
  decidable_of_iff (IsWritten f.name ∧ Text.lower f.name = f.name ∧ '=' ∉ f.name.toList ∧ f.HasKind)
    ⟨fun ⟨h, h', h'', h'''⟩ => ⟨h, h', h'', h'''⟩, fun ⟨h, h', h'', h'''⟩ => ⟨h, h', h'', h'''⟩⟩

/-! ## Reading filters -/

theorem isSolid_isoText (d : Calendar.Date) : Text.IsSolid d.isoText.toList := by
  intro c hc
  rcases Calendar.mem_isoText hc with rfl | ⟨n, hn, rfl⟩
  · rfl
  · have hall : ∀ n < 10, Text.isBlank n.digitChar = false := by decide
    exact hall n hn

theorem no_percent_isoText (d : Calendar.Date) : '%' ∉ d.isoText.toList := by
  intro hc
  rcases Calendar.mem_isoText hc with h | ⟨n, hn, h⟩
  · cases h
  · have hall : ∀ n < 10, '%' ≠ n.digitChar := by decide
    exact hall n hn h

theorem isWritten_isoText (d : Calendar.Date) : IsWritten d.isoText := by
  refine ⟨?_, isSolid_isoText d, no_percent_isoText d⟩
  intro hempty
  have hchars := Calendar.Date.toList_isoText d
  rw [hempty] at hchars
  simp at hchars

namespace Filter

variable {f : Filter}

/-- The text of the value of a filter. -/
def valueText : Filter → String
  | day _ date => date.isoText
  | word _ value => value

theorem chars_eq (f : Filter) : f.chars = f.name.toList ++ '=' :: f.valueText.toList := by
  cases f <;> rfl

theorem Writable.value (h : f.Writable) : IsWritten f.valueText := by
  cases f with
  | day name date => exact isWritten_isoText date
  | word name value => exact h.kind.2

theorem Writable.solid (h : f.Writable) : Text.IsSolid f.chars := by
  rw [chars_eq]
  refine h.name.solid.append fun c hc => ?_
  rcases List.mem_cons.mp hc with rfl | hc
  · rfl
  · exact h.value.solid c hc

theorem Writable.no_percent (h : f.Writable) : '%' ∉ f.chars := by
  rw [chars_eq, List.mem_append, List.mem_cons]
  rintro (hname | hequals | hvalue)
  · exact h.name.no_percent hname
  · cases hequals
  · exact h.value.no_percent hvalue

theorem chars_ne_nil (f : Filter) : f.chars ≠ [] := by
  rw [chars_eq]
  simp

theorem filterOf?_chars (h : f.Writable) : filterOf? f.chars = some (f.name, f.valueText) := by
  have hname : f.name.toList.isEmpty = false := by
    simpa [String.isEmpty_iff] using h.name.ne_empty
  have hvalue : f.valueText.toList.isEmpty = false := by
    simpa [String.isEmpty_iff] using h.value.ne_empty
  rw [filterOf?, chars_eq, partition_of_mem h.no_equals]
  dsimp only
  rw [if_neg (by simp [hname, hvalue]), String.ofList_toList, String.ofList_toList, h.small]

/-- A filter that is not there yet is added at the end. -/
theorem addFilter_chars (h : f.Writable) {filters : Entries}
    (hnew : f.name ∉ filters.map (·.1)) : (addFilter filters f.chars).1 = filters ++ [f.entry] := by
  have hkind := h.kind
  rw [addFilter, filterOf?_chars h]
  cases f with
  | day name date =>
    dsimp only [Filter.name, valueText] at hkind hnew ⊢
    rw [if_pos (List.contains_iff_mem.mpr hkind), Calendar.readDate_isoText]
    exact Entries.insert_new _ hnew
  | word name value =>
    dsimp only [Filter.name, valueText] at hkind hnew ⊢
    rw [if_neg fun hmem => hkind.1 (List.contains_iff_mem.mp hmem)]
    exact Entries.insert_new _ hnew

end Filter

theorem addFilters_chars {fs : List Filter} (h : ∀ f ∈ fs, f.Writable) {filters : Entries}
    (hdistinct : (filters.map (·.1) ++ fs.map Filter.name).Nodup) :
    (addFilters filters (fs.map Filter.chars)).1 = filters ++ fs.map Filter.entry := by
  induction fs generalizing filters with
  | nil => exact (List.append_nil _).symm
  | cons f fs ih =>
    have hf := h f List.mem_cons_self
    have hentry : f.entry.1 = f.name := by cases f <;> rfl
    have hnew : f.name ∉ filters.map (·.1) := by
      intro hmem
      have hapart := (List.nodup_append.mp hdistinct).2.2
      exact hapart f.name hmem f.name List.mem_cons_self rfl
    rw [List.map_cons, addFilters]
    dsimp only
    rw [Filter.addFilter_chars hf hnew, ih fun f' hf' => h f' (List.mem_cons_of_mem f hf')]
    · simp
    · simpa [hentry] using hdistinct

/-! ## Parameters -/

theorem Filter.parameter_eq {f : Filter} (h : f.Writable) :
    (paramName f.entry.1, filterText f.entry.2) = f.parameter := by
  have hkind := h.kind
  cases f with
  | day name date =>
    dsimp only [Filter.entry, Filter.parameter, paramName, filterText]
    rw [if_pos (List.contains_iff_mem.mpr hkind), Value.display]
  | word name value =>
    dsimp only [Filter.entry, Filter.parameter, paramName, filterText]
    rw [if_neg fun hmem => hkind.1 (List.contains_iff_mem.mp hmem), Value.display]

theorem dateFilter_ne {name : String} (h : name ∈ dateFilters) (other : String) :
    name ≠ "filters[" ++ other ++ "]" := by
  have hhead : ∀ name ∈ dateFilters, name.toList.head? ≠ some 'f' := by decide +kernel
  rintro rfl
  apply hhead _ h
  simp

/-- Filters of different names have different parameters. -/
theorem Filter.name_eq_of_parameter {f f' : Filter} (h : f.Writable) (h' : f'.Writable)
    (heq : f.parameter.1 = f'.parameter.1) : f.name = f'.name := by
  have hkind := h.kind
  have hkind' := h'.kind
  cases f with
  | day name date =>
    cases f' with
    | day name' date' => exact heq
    | word name' value' => exact absurd heq (dateFilter_ne hkind name')
  | word name value =>
    cases f' with
    | day name' date' => exact absurd heq.symm (dateFilter_ne hkind' name)
    | word name' value' =>
      have hname : name = name' := by simpa [Filter.parameter] using heq
      exact hname

theorem nodup_parameters {fs : List Filter} (h : ∀ f ∈ fs, f.Writable)
    (hdistinct : (fs.map Filter.name).Nodup) : (fs.map fun f => f.parameter.1).Nodup := by
  rw [List.Nodup, List.pairwise_map] at hdistinct ⊢
  refine hdistinct.imp_of_mem fun {f f'} hf hf' hne heq => hne ?_
  exact Filter.name_eq_of_parameter (h f hf) (h f' hf') heq

theorem params_eq {fs : List Filter} (h : ∀ f ∈ fs, f.Writable)
    (hdistinct : (fs.map Filter.name).Nodup) :
    params (fs.map Filter.entry) = fs.map Filter.parameter := by
  have hmap : (fs.map Filter.entry).map (fun e => (paramName e.1, filterText e.2)) =
      fs.map Filter.parameter := by
    rw [List.map_map]
    exact List.map_congr_left fun f hf => Filter.parameter_eq (h f hf)
  rw [params, hmap, Entries.ofList_of_nodup]
  rw [List.map_map]
  exact nodup_parameters h hdistinct

end Courier.Report

namespace Courier.Template

open Report (Endpoint Filter IsWritten Query Source)

/-! ## Tokens -/

/-- Filters as they are written behind the name of a report: each has a space in front of it, and any
number of further ones. -/
def spaced (filters : List (Nat × Filter)) : List Char :=
  filters.flatMap fun f => List.replicate (f.1 + 1) ' ' ++ f.2.chars

def reportToken (name : String) (filters : List (Nat × Filter)) : Token :=
  ⟨['R', 'E', 'P', 'O', 'R', 'T'], some (name.toList ++ spaced filters)⟩

/-- A gap of spaces. -/
def spaces (more : Nat) : Gap where
  blanks := List.replicate (more + 1) ' '
  ne_nil := List.cons_ne_nil _ _
  blank c hc := by
    rw [List.eq_of_mem_replicate hc]
    rfl
  same_line hmem := by cases List.eq_of_mem_replicate hmem

/-- A filter as a word behind a gap. -/
def spacedWord (f : Nat × Filter) : Gap × String :=
  (spaces f.1, String.ofList f.2.chars)

section

variable {name : String} {filters : List (Nat × Filter)}

theorem separated_spacedWord (filters : List (Nat × Filter)) :
    separated (filters.map spacedWord) = spaced filters := by
  rw [separated, spaced, List.flatMap_map]
  simp only [spacedWord, spaces, String.toList_ofList]

theorem isWritten_spacedWord (h : ∀ f ∈ filters, f.2.Writable) :
    ∀ p ∈ filters.map spacedWord, IsWritten p.2 := by
  refine List.forall_mem_map.mpr fun f hf => ⟨?_, ?_, ?_⟩
  · simpa [spacedWord] using f.2.chars_ne_nil
  · simpa [spacedWord] using (h f hf).solid
  · simpa [spacedWord] using (h f hf).no_percent

/-- The name ends at the first space, so no filter is read as a part of it. -/
theorem glued_spacedWord (filters : List (Nat × Filter)) : glued (filters.map spacedWord) = [] := by
  cases filters with
  | nil => rfl
  | cons f filters => exact List.takeWhile_cons_of_neg (by simp [spacedWord, spaces, Gap.hasSpace])

theorem queryFor_spacedWord (h : ∀ f ∈ filters, f.2.Writable)
    (hdistinct : (filters.map fun f => f.2.name).Nodup) :
    queryFor name (filters.map spacedWord) = ⟨Text.lower name, filters.map fun f => f.2.entry⟩ := by
  have hloose : loose (filters.map spacedWord) = filters.map spacedWord := by
    have hall := glued_append_loose (filters.map spacedWord)
    rwa [glued_spacedWord, List.nil_append] at hall
  have hnames : (([] : Entries).map (·.1) ++ (filters.map (·.2)).map Filter.name).Nodup := by
    simpa [Function.comp_def] using hdistinct
  have hread := Report.addFilters_chars (List.forall_mem_map.mpr h) hnames
  rw [queryFor, glued_spacedWord, hloose, separated_nil, List.append_nil, String.ofList_toList]
  simpa [Function.comp_def, spacedWord] using hread

theorem templateQueries_written (hname : IsWritten name) (h : ∀ f ∈ filters, f.2.Writable)
    (hdistinct : (filters.map fun f => f.2.name).Nodup) :
    templateQueries (String.ofList (reportToken name filters).chars) =
      [⟨Text.lower name, filters.map fun f => f.2.entry⟩] := by
  have htoken : reportToken name filters =
      argumentsToken (name.toList ++ separated (filters.map spacedWord)) := by
    rw [separated_spacedWord]
    rfl
  rw [htoken, templateQueries_separated hname (isWritten_spacedWord h), queryFor_spacedWord h hdistinct]

end

/-- Rendering a report token that was written from a name and filters puts one query to the source, of
this name in small letters and with these filters. The request for it has a parameter of its own for each
of them. -/
theorem report_roundtrip (name : String) (filters : List (Nat × Filter)) (hname : IsWritten name)
    (hfilters : ∀ f ∈ filters, f.2.Writable) (hdistinct : (filters.map fun f => f.2.name).Nodup)
    (siteTitle : String) (answer : Source) (asked : Nat) (values : Entries) (endpoint : Endpoint) :
    let query : Query := ⟨Text.lower name, filters.map fun f => f.2.entry⟩
    ((Engine.mk siteTitle (some answer)).render asked
        ("%%REPORT=" ++ name ++ String.ofList (spaced filters) ++ "%%") values).queries = [query] ∧
      (endpoint.request query).params = filters.map (fun f => f.2.parameter) ∧
      (filters.map fun f => f.2.parameter.1).Nodup := by
  intro query
  have htemplate : "%%REPORT=" ++ name ++ String.ofList (spaced filters) ++ "%%" =
      String.ofList (reportToken name filters).chars := by
    apply String.toList_inj.mp
    simp [Token.chars, reportToken]
  have hwritable : ∀ f ∈ filters.map (·.2), f.Writable := List.forall_mem_map.mpr hfilters
  have hnames : ((filters.map (·.2)).map Filter.name).Nodup := by
    simpa [Function.comp_def] using hdistinct
  refine ⟨?_, ?_, ?_⟩
  · rw [htemplate, render_queries, templateQueries_written hname hfilters hdistinct, untilCancelled,
      untilCancelled, ite_self]
  · have hparams := Report.params_eq hwritable hnames
    simpa [Function.comp_def, Endpoint.request] using hparams
  · simpa [Function.comp_def] using Report.nodup_parameters hwritable hnames

/-- The days of a leap month, and a value with an equals sign. -/
def february : List (Nat × Filter) :=
  [(0, .word "user" "a=b"), (2, .day "start_date" ⟨2024, 2, 1, by decide⟩), (0, .word "group.x" "10"),
    (1, .day "end_date" ⟨2024, 2, 29, by decide⟩)]

theorem report_roundtrip_february :
    let endpoint : Endpoint := ⟨"http://localhost", .int 5, none, none⟩
    let rendered := (Engine.mk "" (some fun _ _ => ⟨.ok none, []⟩)).render 0
      ("%%REPORT=" ++ "Täglich" ++ String.ofList (spaced february) ++ "%%") []
    IsWritten "Täglich" ∧ (∀ f ∈ february, f.2.Writable) ∧
      (february.map fun f => f.2.name).Nodup ∧ rendered.queries.map (·.name) = ["täglich"] ∧
      rendered.queries.map (fun q => (endpoint.request q).params) =
        [[("filters[user]", "a=b"), ("start_date", "2024-02-01"), ("filters[group.x]", "10"),
          ("end_date", "2024-02-29")]] := by
  intro endpoint rendered
  have hname : IsWritten "Täglich" := by decide +kernel
  have hfilters : ∀ f ∈ february, f.2.Writable := by decide +kernel
  have hdistinct : (february.map fun f => f.2.name).Nodup := by decide +kernel
  have hlower : Text.lower "Täglich" = "täglich" := by decide +kernel
  have hparameters : february.map (fun f => f.2.parameter) =
      [("filters[user]", "a=b"), ("start_date", "2024-02-01"), ("filters[group.x]", "10"),
        ("end_date", "2024-02-29")] := by decide +kernel
  obtain ⟨hqueries, hparams, -⟩ := report_roundtrip "Täglich" february hname hfilters hdistinct ""
    (fun _ _ => ⟨.ok none, []⟩) 0 [] endpoint
  refine ⟨hname, hfilters, hdistinct, ?_, ?_⟩
  · exact (congrArg (List.map (·.name)) hqueries).trans (by rw [List.map_singleton, hlower])
  · refine (congrArg (List.map fun q => (endpoint.request q).params) hqueries).trans ?_
    rw [List.map_singleton, hparams, hparameters]

end Courier.Template
