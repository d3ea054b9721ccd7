import Courier.Proofs.Template.Queries
import Courier.Proofs.Text.Lower
import Courier.Proofs.Text.Words

/-!
# The arguments of a report token

The arguments of a report token are the name of a report and words for its filters, with blanks between
them. The filters are separated by blanks of any kind, but the name ends at the first space. The words in
front of it, which are separated by other blanks, are read as a part of the name.
-/

namespace Courier.Text

/-- Blanks behind a text do not change its lower case, and are removed. -/
theorem strip_lower_append {cs blanks : List Char} (hhead : ∀ c ∈ cs.head?, isBlank c = false)
    (hlast : ∀ c ∈ cs.getLast?, isBlank c = false) (hblanks : ∀ c ∈ blanks, isBlank c = true) :
    strip (lower (String.ofList (cs ++ blanks))) = lower (String.ofList cs) := by
  have hbehind : ∀ c ∈ blanks.head?, isBlank c = true := fun c hc =>
    hblanks c (List.mem_of_mem_head? hc)
  rw [lower, String.toList_ofList, lowerFrom_append [] cs hbehind,
    lowerFrom_of_isLow fun c hc => isLow_of_isBlank (hblanks c hc), strip, String.toList_ofList,
    trimWhile_append (head?_lowerFrom hhead) (getLast?_lowerFrom hlast) hblanks, lower,
    String.toList_ofList]

/-- A run of blanks ends where a word begins. -/
theorem takeWhile_blanks {blanks rest : List Char} (hblanks : ∀ c ∈ blanks, isBlank c = true)
    (hrest : ∀ c ∈ rest.head?, isBlank c = false) : (blanks ++ rest).takeWhile isBlank = blanks := by
  rw [List.takeWhile_append_of_pos hblanks]
  cases rest with
  | nil => rw [List.takeWhile_nil, List.append_nil]
  | cons c rest => rw [List.takeWhile_cons_of_neg (by simp [hrest c rfl]), List.append_nil]

end Courier.Text

namespace Courier.Report

/-- A text that can be written between spaces in a token. -/
structure IsWritten (s : String) : Prop where
  ne_empty : s ≠ ""
  solid : Text.IsSolid s.toList
  no_percent : '%' ∉ s.toList

instance (s : String) : Decidable (IsWritten s) :=
  decidable_of_iff (s ≠ "" ∧ (s.toList.any Text.isBlank = false) ∧ '%' ∉ s.toList)
    ⟨fun ⟨h, h', h''⟩ => ⟨h, fun c hc => by simpa using List.any_eq_false.mp h' c hc, h''⟩,
      fun ⟨h, h', h''⟩ => ⟨h, List.any_eq_false.mpr fun c hc => by simp [h' c hc], h''⟩⟩

theorem IsWritten.toList_ne_nil {s : String} (h : IsWritten s) : s.toList ≠ [] := by
  simpa using h.ne_empty

theorem partition_of_mem {separator : Char} {cs : List Char} (h : separator ∉ cs) (rest : List Char) :
    partition separator (cs ++ separator :: rest) = (cs, some rest) := by
  have hall : ∀ c ∈ cs, (c != separator) = true := by
    intro c hc
    rw [bne_iff_ne]
    rintro rfl
    exact h hc
  rw [partition, List.dropWhile_append_of_pos hall, List.takeWhile_append_of_pos hall,
    List.dropWhile_cons_of_neg (by simp), List.takeWhile_cons_of_neg (by simp), List.append_nil]

theorem partition_of_not_mem {separator : Char} {cs : List Char} (h : separator ∉ cs) :
    partition separator cs = (cs, none) := by
  have hall : ∀ c ∈ cs, (c != separator) = true := by
    intro c hc
    rw [bne_iff_ne]
    rintro rfl
    exact h hc
  have hdrop : (cs ++ []).dropWhile (· != separator) = [] := List.dropWhile_append_of_pos hall
  rw [List.append_nil] at hdrop
  rw [partition, hdrop]

end Courier.Report

namespace Courier.Template

open Report (IsWritten Query Source)

/-- The blanks that separate two words of a token. They are on one line with them. -/
@[ext] structure Gap where
  blanks : List Char
  ne_nil : blanks ≠ []
  blank : ∀ c ∈ blanks, Text.isBlank c = true
  same_line : '\n' ∉ blanks
deriving DecidableEq

def Gap.hasSpace (g : Gap) : Bool :=
  g.blanks.contains ' '

/-- Words as they are written behind the name of a report, each behind a gap. -/
def separated (parts : List (Gap × String)) : List Char :=
  parts.flatMap fun p => p.1.blanks ++ p.2.toList

/-- The words in front of the first gap with a space, with their gaps. -/
def glued (parts : List (Gap × String)) : List (Gap × String) :=
  parts.takeWhile fun p => !p.1.hasSpace

/-- The other words, with their gaps. -/
def loose (parts : List (Gap × String)) : List (Gap × String) :=
  parts.dropWhile fun p => !p.1.hasSpace

/-- The query of a report token with a name and words behind it. -/
def queryFor (name : String) (parts : List (Gap × String)) : Query where
  name := Text.lower (String.ofList (name.toList ++ separated (glued parts)))
  filters := (Report.addFilters [] ((loose parts).map fun p => p.2.toList)).1

/-- The report token with these arguments. -/
def argumentsToken (args : List Char) : Token :=
  ⟨['R', 'E', 'P', 'O', 'R', 'T'], some args⟩

@[simp] theorem separated_nil : separated [] = [] :=
  rfl

theorem separated_cons (p : Gap × String) (parts : List (Gap × String)) :
    separated (p :: parts) = p.1.blanks ++ (p.2.toList ++ separated parts) := by
  rw [separated, List.flatMap_cons, List.append_assoc, separated]

theorem separated_append (parts others : List (Gap × String)) :
    separated (parts ++ others) = separated parts ++ separated others :=
  List.flatMap_append

theorem glued_append_loose (parts : List (Gap × String)) : glued parts ++ loose parts = parts :=
  List.takeWhile_append_dropWhile

theorem mem_of_mem_glued {parts : List (Gap × String)} {p : Gap × String} (h : p ∈ glued parts) :
    p ∈ parts ∧ p.1.hasSpace = false := by
  refine ⟨List.takeWhile_subset _ h, ?_⟩
  simpa using List.all_eq_true.mp List.all_takeWhile p h

theorem hasSpace_of_loose {parts others : List (Gap × String)} {p : Gap × String}
    (h : loose parts = p :: others) : p.1.hasSpace = true := by
  have hnot := List.head?_dropWhile_not (fun p : Gap × String => !p.1.hasSpace) parts
  rw [← loose, h] at hnot
  simpa using hnot

/-! ## Words and gaps -/

section
variable {parts : List (Gap × String)}

theorem head?_blanks_append (g : Gap) (cs : List Char) {c : Char} (h : c ∈ (g.blanks ++ cs).head?) :
    Text.isBlank c = true := by
  rw [List.head?_append_of_ne_nil _ g.ne_nil] at h
  exact g.blank c (List.mem_of_mem_head? h)

theorem head?_separated : ∀ c ∈ (separated parts).head?, Text.isBlank c = true := by
  intro c hc
  cases parts with
  | nil => cases hc
  | cons p parts =>
    rw [separated_cons] at hc
    exact head?_blanks_append p.1 _ hc

theorem mem_separated {c : Char} (h : c ∈ separated parts) :
    ∃ p ∈ parts, c ∈ p.1.blanks ∨ c ∈ p.2.toList := by
  obtain ⟨p, hp, hc⟩ := List.mem_flatMap.mp h
  exact ⟨p, hp, List.mem_append.mp hc⟩

variable (hparts : ∀ p ∈ parts, IsWritten p.2)
include hparts

theorem words_separated : Text.words (separated parts) = parts.map fun p => p.2.toList := by
  induction parts with
  | nil => rfl
  | cons p parts ih =>
    have hp := hparts p List.mem_cons_self
    rw [separated_cons, Text.words_blanks p.1.blank,
      Text.words_append hp.solid hp.toList_ne_nil head?_separated,
      ih fun q hq => hparts q (List.mem_cons_of_mem p hq)]
    rfl

theorem getLast?_separated {cs : List Char} (hcs : ∀ c ∈ cs.getLast?, Text.isBlank c = false) :
    ∀ c ∈ (cs ++ separated parts).getLast?, Text.isBlank c = false := by
  induction parts generalizing cs with
  | nil => rwa [separated_nil, List.append_nil]
  | cons p parts ih =>
    have hp := hparts p List.mem_cons_self
    rw [separated_cons, ← List.append_assoc, ← List.append_assoc]
    apply ih fun q hq => hparts q (List.mem_cons_of_mem p hq)
    intro c hc
    rw [List.getLast?_append_of_ne_nil _ hp.toList_ne_nil] at hc
    exact hp.solid c (List.mem_of_mem_getLast? hc)

/-- A word is between the gaps, so only the gaps can bring a blank. -/
theorem mem_blanks_of_isBlank {c : Char} (hc : c ∈ separated parts) (hblank : Text.isBlank c = true) :
    ∃ p ∈ parts, c ∈ p.1.blanks := by
  obtain ⟨p, hp, hgap | hword⟩ := mem_separated hc
  · exact ⟨p, hp, hgap⟩
  · cases hblank.symm.trans ((hparts p hp).solid c hword)

end

/-! ## Reading the arguments -/

section
variable {name : String} {parts : List (Gap × String)} (hname : IsWritten name)
  (hparts : ∀ p ∈ parts, IsWritten p.2)
include hname

theorem head?_written (cs : List Char) : ∀ c ∈ (name.toList ++ cs).head?, Text.isBlank c = false := by
  intro c hc
  rw [List.head?_append_of_ne_nil _ hname.toList_ne_nil] at hc
  exact hname.solid c (List.mem_of_mem_head? hc)

include hparts

theorem getLast?_written :
    ∀ c ∈ (name.toList ++ separated parts).getLast?, Text.isBlank c = false :=
  getLast?_separated hparts fun c hc => hname.solid c (List.mem_of_mem_getLast? hc)

theorem trimWhile_written :
    Text.trimWhile Text.isBlank (name.toList ++ separated parts) = name.toList ++ separated parts :=
  Text.trimWhile_of_ends (head?_written hname _) (getLast?_written hname hparts)

/-- No space is in the name or in what is glued to it. -/
theorem no_space_glued : ' ' ∉ name.toList ++ separated (glued parts) := by
  intro hmem
  rcases List.mem_append.mp hmem with hmem | hmem
  · cases hname.solid ' ' hmem
  · obtain ⟨p, hp, hgap⟩ :=
      mem_blanks_of_isBlank (fun q hq => hparts q (mem_of_mem_glued hq).1) hmem rfl
    have hspace : p.1.hasSpace = true := List.contains_iff_mem.mpr hgap
    cases hspace.symm.trans (mem_of_mem_glued hp).2

/-- The arguments are parted at the first space, which may follow other blanks. -/
theorem partition_separated :
    ∃ blanks rest, Report.partition ' ' (name.toList ++ separated parts) =
        (name.toList ++ separated (glued parts) ++ blanks, rest) ∧
      (∀ c ∈ blanks, Text.isBlank c = true) ∧
      Text.words (rest.getD []) = (loose parts).map fun p => p.2.toList := by
  have hspace := no_space_glued hname hparts
  have hsplit : separated parts = separated (glued parts) ++ separated (loose parts) := by
    rw [← separated_append, glued_append_loose]
  cases hcases : loose parts with
  | nil =>
    refine ⟨[], none, ?_, by simp, rfl⟩
    rw [hsplit, hcases, separated_nil, List.append_nil, List.append_nil, Report.partition_of_not_mem hspace]
  | cons p others =>
    have hloose : ∀ q ∈ p :: others, IsWritten q.2 := fun q hq =>
      hparts q ((List.dropWhile_suffix _).subset (hcases ▸ hq))
    -- The first space of all is the first one in the gap of `p`; what is in front of it are blanks.
    obtain ⟨before, after, hblanks, hbefore⟩ :=
      List.eq_append_cons_of_mem (List.contains_iff_mem.mp (hasSpace_of_loose hcases))
    have hblank : ∀ c ∈ before ++ ' ' :: after, Text.isBlank c = true := hblanks ▸ p.1.blank
    have hfront : ∀ c ∈ before, Text.isBlank c = true := fun c hc =>
      hblank c (List.mem_append_left _ hc)
    have hback : ∀ c ∈ after, Text.isBlank c = true := fun c hc =>
      hblank c (List.mem_append_right _ (List.mem_cons_of_mem ' ' hc))
    have hnew : ' ' ∉ name.toList ++ separated (glued parts) ++ before := fun hmem =>
      (List.mem_append.mp hmem).elim hspace hbefore
    refine ⟨before, some (after ++ (p.2.toList ++ separated others)), ?_, hfront, ?_⟩
    · rw [hsplit, hcases, separated_cons, hblanks, ← Report.partition_of_mem hnew]
      simp only [List.append_assoc, List.cons_append]
    · rw [← words_separated hloose, separated_cons, Text.words_blanks p.1.blank, Option.getD_some,
        Text.words_blanks hback]

/-- The blanks between the name and the first space are no part of the name. -/
theorem queryOf?_separated :
    queryOf? (name.toList ++ separated parts) = some (queryFor name parts) := by
  obtain ⟨blanks, rest, hpartition, hblanks, hwords⟩ := partition_separated hname hparts
  have hglued : ∀ p ∈ glued parts, IsWritten p.2 := fun p hp => hparts p (mem_of_mem_glued hp).1
  have hempty : (name.toList ++ separated (glued parts) ++ blanks).isEmpty = false := by
    simp [hname.toList_ne_nil]
  have hlower := Text.strip_lower_append (head?_written hname _) (getLast?_written hname hglued) hblanks
  rw [queryOf?, trimWhile_written hname hparts, hpartition]
  dsimp only
  rw [hempty, hlower, Text.lower_lower, Report.readFilters, hwords]
  rfl

theorem writable_argumentsToken : (argumentsToken (name.toList ++ separated parts)).Writable := by
  have hpercent : '%' ∉ name.toList ++ separated parts := by
    intro hmem
    rcases List.mem_append.mp hmem with hmem | hmem
    · exact hname.no_percent hmem
    · obtain ⟨p, hp, hgap | hword⟩ := mem_separated hmem
      · cases p.1.blank '%' hgap
      · exact (hparts p hp).no_percent hword
  have hline : '\n' ∉ name.toList ++ separated parts := by
    intro hmem
    rcases List.mem_append.mp hmem with hmem | hmem
    · cases hname.solid '\n' hmem
    · obtain ⟨p, hp, hgap⟩ := mem_blanks_of_isBlank hparts hmem rfl
      exact p.1.same_line hgap
  refine ⟨List.cons_ne_nil _ _, ?_, ?_, ?_, ?_⟩
  · have hletters : ['R', 'E', 'P', 'O', 'R', 'T'].all isNameChar = true := by decide
    exact List.all_eq_true.mp hletters
  · rintro _ ⟨⟩
    exact hline
  · rintro _ ⟨⟩ hmark
    exact hpercent (hmark.subset List.mem_cons_self)
  · rintro _ ⟨⟩ hend
    exact hpercent (hend.subset List.mem_cons_self)

theorem templateQueries_separated :
    templateQueries (String.ofList (argumentsToken (name.toList ++ separated parts)).chars) =
      [queryFor name parts] := by
  have hpieces := piecesFrom_token (writable_argumentsToken hname hparts) []
  rw [List.append_nil] at hpieces
  have hquery : (argumentsToken (name.toList ++ separated parts)).query? =
      some (queryFor name parts) := by
    have hreport : Text.lower (String.ofList ['R', 'E', 'P', 'O', 'R', 'T']) = reportName := by
      decide +kernel
    rw [← queryOf?_separated hname hparts]
    exact if_pos hreport
  rw [templateQueries, String.toList_ofList, pieces, hpieces]
  exact List.filterMap_cons_some hquery

/-- Rendering a report token puts its query to the source. -/
theorem render_separated (siteTitle : String) (answer : Source) (asked : Nat) (values : Entries) :
    ((Engine.mk siteTitle (some answer)).render asked
      ("%%REPORT=" ++ name ++ String.ofList (separated parts) ++ "%%") values).queries =
        [queryFor name parts] := by
  have htemplate : "%%REPORT=" ++ name ++ String.ofList (separated parts) ++ "%%" =
      String.ofList (argumentsToken (name.toList ++ separated parts)).chars := by
    apply String.toList_inj.mp
    simp [Token.chars, argumentsToken]
  rw [htemplate, render_queries, templateQueries_separated hname hparts, untilCancelled, untilCancelled,
    ite_self]

end

/-! ## Gaps that are kept in the name -/

theorem lowerFrom_separated_cons (before : List Char) (p : Gap × String) (parts : List (Gap × String)) :
    Text.lowerFrom before (separated (p :: parts)) =
      p.1.blanks ++
        Text.lowerFrom (p.1.blanks.reverse ++ before) (p.2.toList ++ separated parts) := by
  rw [separated_cons, Text.lowerFrom_blanks before p.1.blank]

theorem lowerFrom_separated_cons_ne_nil (before : List Char) (p : Gap × String)
    (parts : List (Gap × String)) : Text.lowerFrom before (separated (p :: parts)) ≠ [] := by
  rw [lowerFrom_separated_cons]
  exact List.append_ne_nil_of_left_ne_nil p.1.ne_nil _

/-- Lower case changes no gap: words in lower case have the gaps that they had before. -/
theorem eq_of_lowerFrom_separated {entries : List String} (hentries : ∀ e ∈ entries, IsWritten e)
    {parts others : List (Gap × String)} (hparts : parts.map (·.2) <+: entries)
    (hothers : others.map (·.2) <+: entries) {before : List Char}
    (h : Text.lowerFrom before (separated parts) = Text.lowerFrom before (separated others)) :
    parts = others := by
  induction entries generalizing parts others before with
  | nil =>
    have hnil : parts = [] := by simpa using hparts
    have hnil' : others = [] := by simpa using hothers
    rw [hnil, hnil']
  | cons e entries ih =>
    cases parts with
    | nil =>
      cases others with
      | nil => rfl
      | cons q others => exact absurd h.symm (lowerFrom_separated_cons_ne_nil before q others)
    | cons p parts =>
      cases others with
      | nil => exact absurd h (lowerFrom_separated_cons_ne_nil before p parts)
      | cons q others =>
        obtain ⟨(hp : p.2 = e), hparts⟩ := List.cons_prefix_cons.mp hparts
        obtain ⟨(hq : q.2 = e), hothers⟩ := List.cons_prefix_cons.mp hothers
        have hword (before rest : List Char) :
            ∀ c ∈ (Text.lowerFrom before (e.toList ++ rest)).head?, Text.isBlank c = false :=
          Text.head?_lowerFrom (head?_written (hentries e List.mem_cons_self) rest)
        -- Both lists have the same word next, so the blanks in front of it are the same, and lower case
        -- goes on behind it from the same letters.
        rw [lowerFrom_separated_cons, lowerFrom_separated_cons, hp, hq] at h
        have hgap : p.1.blanks = q.1.blanks := by
          rw [← Text.takeWhile_blanks p.1.blank (hword _ _), h, Text.takeWhile_blanks q.1.blank (hword _ _)]
        rw [hgap] at h
        have hrest := List.append_cancel_left h
        rw [Text.lowerFrom_append _ _ head?_separated, Text.lowerFrom_append _ _ head?_separated] at hrest
        have htail : parts = others :=
          ih (fun e' he' => hentries e' (List.mem_cons_of_mem e he')) hparts hothers
            (List.append_cancel_left hrest)
        rw [htail, Prod.ext (Gap.ext hgap) (hp.trans hq.symm)]

theorem initial_words_glued (parts : List (Gap × String)) :
    (glued parts).map (·.2) <+: parts.map (·.2) :=
  (List.takeWhile_prefix _).map _

theorem glued_eq_of_queryFor_eq {name : String} {parts others : List (Gap × String)}
    (hparts : ∀ p ∈ parts, IsWritten p.2) (halike : parts.map (·.2) = others.map (·.2))
    (h : queryFor name parts = queryFor name others) : glued parts = glued others := by
  have hnames := String.ofList_inj.mp (congrArg Query.name h)
  rw [String.toList_ofList, String.toList_ofList, Text.lowerFrom_append _ _ head?_separated,
    Text.lowerFrom_append _ _ head?_separated] at hnames
  exact eq_of_lowerFrom_separated (List.forall_mem_map.mpr hparts) (initial_words_glued parts)
    (halike ▸ initial_words_glued others) (List.append_cancel_left hnames)

theorem queryFor_eq_of_glued_eq (name : String) {parts others : List (Gap × String)}
    (halike : parts.map (·.2) = others.map (·.2)) (h : glued parts = glued others) :
    queryFor name parts = queryFor name others := by
  have hloose : (loose parts).map (·.2) = (loose others).map (·.2) := by
    rw [← glued_append_loose parts, ← glued_append_loose others, List.map_append, List.map_append,
      h] at halike
    exact List.append_cancel_left halike
  have hwords : (loose parts).map (fun p => p.2.toList) = (loose others).map fun p => p.2.toList := by
    simpa [Function.comp_def] using congrArg (List.map String.toList) hloose
  rw [queryFor, queryFor, h, hwords]

/-- A report token with words behind the name puts one query to the source, which has the words in front
of the first gap with a space in its name, and those behind it as filters. Two tokens with the same words
put the same query exactly if the same words, in the same gaps, are in front of the first gap with a
space. -/
theorem same_query_iff (name : String) (parts others : List (Gap × String)) (hname : IsWritten name)
    (hparts : ∀ p ∈ parts, IsWritten p.2) (halike : parts.map (·.2) = others.map (·.2))
    (siteTitle : String) (answer : Source) (asked : Nat) (values : Entries) :
    let queries := fun written : List (Gap × String) =>
      ((Engine.mk siteTitle (some answer)).render asked
        ("%%REPORT=" ++ name ++ String.ofList (separated written) ++ "%%") values).queries
    queries parts = [queryFor name parts] ∧ queries others = [queryFor name others] ∧
      (queries parts = queries others ↔ glued parts = glued others) := by
  intro queries
  have hothers : ∀ p ∈ others, IsWritten p.2 := by
    refine List.forall_mem_map.mp ?_
    rw [← halike]
    exact List.forall_mem_map.mpr hparts
  have hone : queries parts = [queryFor name parts] :=
    render_separated hname hparts siteTitle answer asked values
  have hother : queries others = [queryFor name others] :=
    render_separated hname hothers siteTitle answer asked values
  refine ⟨hone, hother, ?_⟩
  rw [hone, hother, List.cons.injEq, and_iff_left rfl]
  exact ⟨glued_eq_of_queryFor_eq hparts halike, queryFor_eq_of_glued_eq name halike⟩

def space : Gap := ⟨[' '], List.cons_ne_nil _ _, List.all_eq_true.mp rfl, by decide⟩

def tab : Gap := ⟨['\t'], List.cons_ne_nil _ _, List.all_eq_true.mp rfl, by decide⟩

/-- A no-break space in front of a space. -/
def wide : Gap := ⟨['\u00a0', ' '], List.cons_ne_nil _ _, List.all_eq_true.mp rfl, by decide⟩

theorem same_query_iff_wide :
    let parts := [(space, "group=4"), (tab, "user=Ann")]
    let others := [(wide, "group=4"), (space, "user=Ann")]
    let queries := fun written : List (Gap × String) =>
      ((Engine.mk "" (some fun _ _ => ⟨.ok none, []⟩)).render 0
        ("%%REPORT=" ++ "Likes" ++ String.ofList (separated written) ++ "%%") []).queries
    IsWritten "Likes" ∧ (∀ p ∈ parts, IsWritten p.2) ∧ parts.map (·.2) = others.map (·.2) ∧
      queries parts = queries others := by
  intro parts others queries
  have hname : IsWritten "Likes" := by decide +kernel
  have hparts : ∀ p ∈ parts, IsWritten p.2 := by decide +kernel
  have halike : parts.map (·.2) = others.map (·.2) := by decide
  have hglued : glued parts = glued others := by decide
  refine ⟨hname, hparts, halike, ?_⟩
  exact (same_query_iff "Likes" parts others hname hparts halike "" (fun _ _ => ⟨.ok none, []⟩) 0
    []).2.2.mpr hglued

/-- A tab behind the name makes the filter a part of the name. -/
theorem tab_glues_filter :
    let names := fun written : List (Gap × String) =>
      ((Engine.mk "" (some fun _ _ => ⟨.ok none, []⟩)).render 0
        ("%%REPORT=" ++ "likes" ++ String.ofList (separated written) ++ "%%") []).queries.map
          fun q => (q.name, q.filters.map (·.1))
    IsWritten "likes" ∧ IsWritten "group=4" ∧ names [(space, "group=4")] = [("likes", ["group"])] ∧
      names [(tab, "group=4")] = [("likes\tgroup=4", [])] := by
  decide +kernel

end Courier.Template
