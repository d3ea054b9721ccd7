import Courier.Proofs.Template.Segments

/-!
# What a template asks for

The report tokens of a template name the queries that rendering it puts to the source of reports, in the
order of the text: all of them, whatever the answers are, unless one of the answers is a cancellation.
Neither the values nor what earlier reports look like play a part in it. A report that is not there, or
that the source fails to give, is an empty text; all other text is the same for every source.
-/

namespace Courier.Template

open Report (Asked Query Series Source)

/-! ## Queries -/

/-- The query of a report token with these arguments. Without the name of a report there is none. -/
def queryOf? (args : List Char) : Option Query :=
  let (name, filters) := Report.partition ' ' (Text.trimWhile Text.isBlank args)
  if name.isEmpty then none
  else
    some ⟨Text.lower (Text.strip (Text.lower (String.ofList name))),
      (Report.readFilters (filters.getD [])).1⟩

def Token.query? (t : Token) : Option Query :=
  match t.args with
  | some args => if Text.lower (String.ofList t.name) = reportName then queryOf? args else none
  | none => none

def Piece.query? : Piece → Option Query
  | .char _ => none
  | .token t => t.query?

/-- The queries of the report tokens of a template, in the order of the text. -/
def templateQueries (template : String) : List Query :=
  (pieces template.toList).filterMap Piece.query?

/-- The text of a piece that asks for no report. -/
def Piece.plainText (table : Entries) (piece : Piece) : String :=
  match (pieceText none table 0 piece).outcome with
  | .ok text => text
  | .error _ => ""

/-- What stands in the place of a report. -/
def shown : Except Failure (Option Series) → String
  | .ok (some series) => Report.table series
  | .ok none | .error _ => ""

def IsCancelled (answer : Except Failure (Option Series)) : Prop :=
  ∃ f, answer = .error f ∧ f.isCancellation = true

instance : (answer : Except Failure (Option Series)) → Decidable (IsCancelled answer)
  | .ok _ => isFalse nofun
  | .error f => decidable_of_iff (f.isCancellation = true) ⟨fun h => ⟨f, rfl, h⟩, fun ⟨_, rfl, h⟩ => h⟩

/-- The source may fail, but is not cancelled. -/
def NeverCancelled (answer : Source) : Prop :=
  ∀ n q, ¬ IsCancelled (answer n q).outcome

/-- The queries that are put to a source one after another: up to the first one that is cancelled. -/
def untilCancelled (answer : Source) (asked : Nat) : List Query → List Query
  | [] => []
  | q :: rest =>
    if IsCancelled (answer asked q).outcome then [q] else q :: untilCancelled answer (asked + 1) rest

/-- The texts of pieces, of which those that ask for a report show what the source answered. -/
def pieceTexts (table : Entries) (answer : Source) (asked : Nat) : List Piece → List String
  | [] => []
  | piece :: rest =>
    match piece.query? with
    | none => piece.plainText table :: pieceTexts table answer asked rest
    | some q => shown (answer asked q).outcome :: pieceTexts table answer (asked + 1) rest

/-! ## Pieces -/

theorem argsBefore_eq {cs args : List Char} (h : argsBefore cs = some args) :
    ∃ rest, cs = args ++ '%' :: '%' :: rest := by
  induction cs generalizing args with
  | nil => cases h
  | cons c cs ih =>
    rw [argsBefore.eq_def] at h
    split at h
    · cases h
    · rename_i rest heq
      cases h
      exact ⟨rest, heq⟩
    · rename_i c' rest _ heq
      obtain ⟨rfl, rfl⟩ := List.cons.inj heq
      split at h
      · cases h
      · obtain ⟨args', hargs, rfl⟩ := Option.map_eq_some_iff.mp h
        obtain ⟨rest', rfl⟩ := ih hargs
        exact ⟨rest', rfl⟩

/-- A token is read from its own characters. -/
theorem chars_prefix_of_token? {cs : List Char} {t : Token} (h : token? cs = some t) :
    t.chars <+: cs := by
  rw [token?.eq_def] at h
  split at h
  · rename_i text
    have hname := List.takeWhile_append_dropWhile (p := isNameChar) (l := text)
    dsimp only at h
    by_cases hempty : (text.takeWhile isNameChar).isEmpty = true
    · rw [if_pos hempty] at h
      cases h
    · rw [if_neg hempty] at h
      split at h
      · rename_i rest hrest
        cases h
        refine ⟨rest, ?_⟩
        rw [hrest] at hname
        simpa [Token.chars] using hname
      · rename_i more hmore
        obtain ⟨args, hargs, rfl⟩ := Option.map_eq_some_iff.mp h
        obtain ⟨rest, rfl⟩ := argsBefore_eq hargs
        refine ⟨rest, ?_⟩
        rw [hmore] at hname
        simpa [Token.chars] using hname
      · cases h
  · cases h

theorem flatMap_chars_piecesFrom (passed : Nat) (cs : List Char) :
    (piecesFrom passed cs).flatMap Piece.chars = cs.drop passed := by
  induction cs generalizing passed with
  | nil => cases passed <;> rfl
  | cons c cs ih =>
    cases passed with
    | succ passed => exact ih passed
    | zero =>
      rw [piecesFrom]
      split
      · rename_i t htoken
        obtain ⟨rest, hrest⟩ := chars_prefix_of_token? htoken
        have hlength : t.chars.length = (t.chars.length - 1) + 1 := rfl
        have hdrop : cs.drop (t.chars.length - 1) = rest := by
          rw [← List.drop_succ_cons (a := c), ← hlength, ← hrest, List.drop_left]
        rw [List.flatMap_cons, ih, hdrop]
        exact hrest
      · rw [List.flatMap_cons, ih]
        rfl

/-- The pieces of a template are all of its text. -/
theorem flatMap_chars_pieces (cs : List Char) : (pieces cs).flatMap Piece.chars = cs :=
  flatMap_chars_piecesFrom 0 cs

/-! ## The text of a piece -/

variable (table : Entries)

theorem reportText_of_no_query {args : List Char} (h : queryOf? args = none) (source : Option Source)
    (asked : Nat) : reportText source asked args = ⟨.ok "", [], []⟩ := by
  unfold queryOf? at h
  unfold reportText
  generalize Report.partition ' ' (Text.trimWhile Text.isBlank args) = parts at h ⊢
  dsimp only at h ⊢
  by_cases hname : parts.1.isEmpty = true
  · rw [if_pos hname]
  · rw [if_neg hname] at h
    cases h

theorem reportText_of_query {args : List Char} {q : Query} (h : queryOf? args = some q)
    (answer : Source) (asked : Nat) :
    (reportText (some answer) asked args).queries = [q] ∧
      (reportText (some answer) asked args).outcome =
        (Report.tableOf q.name (answer asked q).outcome).outcome.map (·.getD "") := by
  unfold queryOf? at h
  unfold reportText
  generalize Report.partition ' ' (Text.trimWhile Text.isBlank args) = parts at h ⊢
  dsimp only at h ⊢
  by_cases hname : parts.1.isEmpty = true
  · rw [if_pos hname] at h
    cases h
  · rw [if_neg hname] at h ⊢
    generalize Report.readFilters (parts.2.getD []) = read at h ⊢
    obtain rfl := Option.some.inj h
    simp only [Report.fetch, and_self]

/-- A piece that asks for nothing has the same text for every source. -/
theorem pieceText_of_no_query {piece : Piece} (h : piece.query? = none) (source : Option Source)
    (asked : Nat) : pieceText source table asked piece = ⟨.ok (piece.plainText table), [], []⟩ := by
  cases piece with
  | char c => rfl
  | token t =>
    obtain ⟨name, args⟩ := t
    cases args with
    | none =>
      dsimp only [Piece.plainText, pieceText, tokenText]
      split <;> rfl
    | some args =>
      by_cases hreport : Text.lower (String.ofList name) = reportName
      · have hnone : queryOf? args = none := by
          simpa only [Piece.query?, Token.query?, if_pos hreport] using h
        simp only [Piece.plainText, pieceText, tokenText, if_pos hreport,
          reportText_of_no_query hnone]
      · simp only [Piece.plainText, pieceText, tokenText, if_neg hreport]

theorem pieceText_of_query {piece : Piece} {q : Query} (h : piece.query? = some q) (answer : Source)
    (asked : Nat) :
    (pieceText (some answer) table asked piece).queries = [q] ∧
      (pieceText (some answer) table asked piece).outcome =
        (Report.tableOf q.name (answer asked q).outcome).outcome.map (·.getD "") := by
  cases piece with
  | char c => cases h
  | token t =>
    obtain ⟨name, args⟩ := t
    cases args with
    | none => cases h
    | some args =>
      by_cases hreport : Text.lower (String.ofList name) = reportName
      · have hsome : queryOf? args = some q := by
          simpa only [Piece.query?, Token.query?, if_pos hreport] using h
        simp only [pieceText, tokenText, if_pos hreport]
        exact reportText_of_query hsome answer asked
      · simp only [Piece.query?, Token.query?, if_neg hreport] at h
        cases h

theorem tableOf_of_not_cancelled (name : String) {answer : Except Failure (Option Series)}
    (h : ¬ IsCancelled answer) :
    (Report.tableOf name answer).outcome.map (·.getD "") = .ok (shown answer) := by
  cases answer with
  | ok series => cases series <;> rfl
  | error f =>
    have hf : f.isCancellation = false := by
      simpa using fun hcancelled => h ⟨f, rfl, hcancelled⟩
    rw [Report.tableOf, if_neg (by simp [hf])]
    split <;> rfl

theorem tableOf_of_cancelled (name : String) {answer : Except Failure (Option Series)}
    (h : IsCancelled answer) :
    ∃ f, (Report.tableOf name answer).outcome.map (·.getD "") = .error f := by
  obtain ⟨f, rfl, hf⟩ := h
  refine ⟨f, ?_⟩
  rw [Report.tableOf, if_pos hf]
  rfl

/-! ## Asking -/

section

variable (answer : Source)

theorem untilCancelled_prefix (asked : Nat) (qs : List Query) :
    untilCancelled answer asked qs <+: qs := by
  induction qs generalizing asked with
  | nil => exact List.prefix_rfl
  | cons q qs ih =>
    rw [untilCancelled]
    split
    · exact ⟨qs, rfl⟩
    · exact (List.prefix_cons_inj q).mpr (ih (asked + 1))

theorem untilCancelled_eq {answer : Source} (h : NeverCancelled answer) (asked : Nat) (qs : List Query) :
    untilCancelled answer asked qs = qs := by
  induction qs generalizing asked with
  | nil => rfl
  | cons q qs ih => rw [untilCancelled, if_neg (h asked q), ih]

/-- How far a source is asked does not depend on what it was asked before, if its answers do not. -/
theorem untilCancelled_congr {answer : Source}
    (h : ∀ m n q, (answer m q).outcome = (answer n q).outcome) (asked asked' : Nat)
    (qs : List Query) : untilCancelled answer asked qs = untilCancelled answer asked' qs := by
  induction qs generalizing asked asked' with
  | nil => rfl
  | cons q qs ih => rw [untilCancelled, untilCancelled, h asked asked', ih (asked + 1) (asked' + 1)]

/-- Rendering pieces puts their queries to the source in turn, and goes on to what is asked for later
unless one of them is cancelled. -/
theorem untilCancelled_append (asked : Nat) (ps : List Piece) (later : List Query) :
    untilCancelled answer asked (ps.filterMap Piece.query? ++ later) =
      match (renderPieces (some answer) table asked ps).outcome with
      | .ok _ =>
        (renderPieces (some answer) table asked ps).queries ++
          untilCancelled answer
            (asked + (renderPieces (some answer) table asked ps).queries.length) later
      | .error _ => (renderPieces (some answer) table asked ps).queries := by
  induction ps generalizing asked with
  | nil => rfl
  | cons piece ps ih =>
    cases hquery : piece.query? with
    | none =>
      rw [List.filterMap_cons_none hquery, renderPieces, pieceText_of_no_query table hquery, ih]
      dsimp only
      rw [List.length_nil, Nat.add_zero]
      cases (renderPieces (some answer) table asked ps).outcome <;> rfl
    | some q =>
      obtain ⟨hqueries, houtcome⟩ := pieceText_of_query table hquery answer asked
      rw [List.filterMap_cons_some hquery, List.cons_append, untilCancelled]
      by_cases hcancelled : IsCancelled (answer asked q).outcome
      · obtain ⟨f, hf⟩ := tableOf_of_cancelled q.name hcancelled
        simp only [renderPieces, houtcome, hf, hqueries, if_pos hcancelled]
      · rw [if_neg hcancelled, ih]
        simp only [renderPieces, houtcome, tableOf_of_not_cancelled q.name hcancelled, hqueries,
          List.length_singleton, List.singleton_append]
        cases (renderPieces (some answer) table (asked + 1) ps).outcome with
        | error f => rfl
        | ok texts => simp [Except.map, Nat.add_assoc, Nat.add_comm]

theorem renderPieces_queries (asked : Nat) (ps : List Piece) :
    (renderPieces (some answer) table asked ps).queries =
      untilCancelled answer asked (ps.filterMap Piece.query?) := by
  have happend := untilCancelled_append table answer asked ps []
  rw [List.append_nil] at happend
  rw [happend]
  split
  · exact (List.append_nil _).symm
  · rfl

theorem render_queries (siteTitle template : String) (values : Entries) (asked : Nat) :
    ((Engine.mk siteTitle (some answer)).render asked template values).queries =
      untilCancelled answer asked (templateQueries template) := by
  rw [Engine.render]
  exact renderPieces_queries _ answer asked (pieces template.toList)

/-- Without a cancellation every piece has a text. -/
theorem renderPieces_outcome {answer : Source} (h : NeverCancelled answer) (asked : Nat) (ps : List Piece) :
    (renderPieces (some answer) table asked ps).outcome = .ok (pieceTexts table answer asked ps) := by
  induction ps generalizing asked with
  | nil => rfl
  | cons piece ps ih =>
    cases hquery : piece.query? with
    | none =>
      simp only [renderPieces, pieceText_of_no_query table hquery, List.length_nil, Nat.add_zero, ih,
        pieceTexts, hquery]
      rfl
    | some q =>
      obtain ⟨hqueries, houtcome⟩ := pieceText_of_query table hquery answer asked
      simp only [renderPieces, houtcome, tableOf_of_not_cancelled q.name (h asked q), hqueries,
        List.length_singleton, ih, pieceTexts, hquery]
      rfl

end

/-! ## Texts -/

theorem length_pieceTexts (answer : Source) (asked : Nat) (ps : List Piece) :
    (pieceTexts table answer asked ps).length = ps.length := by
  induction ps generalizing asked with
  | nil => rfl
  | cons piece ps ih =>
    rw [pieceTexts]
    split
    · rw [List.length_cons, ih, List.length_cons]
    · rw [List.length_cons, ih, List.length_cons]

/-- The number of queries that come before a piece. -/
def queriesBefore (ps : List Piece) (i : Nat) : Nat :=
  ((ps.take i).filterMap Piece.query?).length

theorem pieceTexts_getElem? {ps : List Piece} {i : Nat} {piece : Piece} (h : ps[i]? = some piece)
    (answer : Source) (asked : Nat) :
    (pieceTexts table answer asked ps)[i]? =
      some (match piece.query? with
        | none => piece.plainText table
        | some q => shown (answer (asked + queriesBefore ps i) q).outcome) := by
  induction ps generalizing i asked with
  | nil => cases h
  | cons first ps ih =>
    cases i with
    | zero =>
      obtain rfl : first = piece := Option.some.inj h
      rw [pieceTexts]
      split <;> rfl
    | succ i =>
      have hnext : ps[i]? = some piece := h
      rw [pieceTexts]
      cases hquery : first.query? with
      | none =>
        have hbefore : queriesBefore (first :: ps) (i + 1) = queriesBefore ps i := by
          rw [queriesBefore, List.take_succ_cons, List.filterMap_cons_none hquery, queriesBefore]
        dsimp only
        rw [List.getElem?_cons_succ, ih hnext, hbefore]
      | some q =>
        have hbefore : queriesBefore (first :: ps) (i + 1) = 1 + queriesBefore ps i := by
          rw [queriesBefore, List.take_succ_cons, List.filterMap_cons_some hquery, List.length_cons,
            queriesBefore, Nat.add_comm]
        dsimp only
        rw [List.getElem?_cons_succ, ih hnext, hbefore, Nat.add_assoc]

/-! ## Failures -/

theorem render_of_neverCancelled {answer : Source} (h : NeverCancelled answer)
    (siteTitle template : String) (values : Entries) (asked : Nat) :
    let rendered := (Engine.mk siteTitle (some answer)).render asked template values
    rendered.outcome = .ok (String.join
        (pieceTexts (lookupTable siteTitle values) answer asked (pieces template.toList))) ∧
      rendered.queries = templateQueries template := by
  dsimp only
  rw [render_queries, untilCancelled_eq h, Engine.render]
  dsimp only
  rw [renderPieces_outcome _ h]
  exact ⟨rfl, rfl⟩

/-- However the source answers, failures among its answers: a template is rendered, all its reports are
asked for, and its pieces have the same texts but for the reports. A report that failed or is not there
has the empty text. -/
theorem failures_contained (siteTitle template : String) (values : Entries) (asked : Nat)
    {answer answer' : Source} (h : NeverCancelled answer) (h' : NeverCancelled answer') :
    let rendered (answer : Source) : Asked String :=
      (Engine.mk siteTitle (some answer)).render asked template values
    let ps := pieces template.toList
    let answered (answer : Source) (i : Nat) (q : Query) : Except Failure (Option Series) :=
      (answer (asked + queriesBefore ps i) q).outcome
    ps.flatMap Piece.chars = template.toList ∧
      (rendered answer).queries = templateQueries template ∧
      (rendered answer').queries = templateQueries template ∧
      ∃ texts texts' : List String,
        (rendered answer).outcome = .ok (String.join texts) ∧ texts.length = ps.length ∧
        (rendered answer').outcome = .ok (String.join texts') ∧ texts'.length = ps.length ∧
        ∀ i (piece : Piece), ps[i]? = some piece →
          match piece.query? with
          | none => texts[i]? = texts'[i]?
          | some q =>
            texts[i]? = some (shown (answered answer i q)) ∧
              texts'[i]? = some (shown (answered answer' i q)) := by
  intro rendered ps answered
  obtain ⟨houtcome, hqueries⟩ := render_of_neverCancelled h siteTitle template values asked
  obtain ⟨houtcome', hqueries'⟩ := render_of_neverCancelled h' siteTitle template values asked
  refine ⟨flatMap_chars_pieces _, hqueries, hqueries', _, _, houtcome, length_pieceTexts _ _ _ _,
    houtcome', length_pieceTexts _ _ _ _, ?_⟩
  intro i piece hpiece
  have htext := pieceTexts_getElem? (lookupTable siteTitle values) hpiece answer asked
  have htext' := pieceTexts_getElem? (lookupTable siteTitle values) hpiece answer' asked
  cases hquery : piece.query? with
  | none =>
    rw [hquery] at htext htext'
    exact htext.trans htext'.symm
  | some q =>
    rw [hquery] at htext htext'
    exact ⟨htext, htext'⟩

/-- Fails in two ways, then has no report, then one that is empty. -/
def unreliable : Source := fun n _ =>
  match n with
  | 0 => ⟨.error (.reportUnavailable "no such report"), []⟩
  | 1 => ⟨.error .storeClosed, []⟩
  | 2 => ⟨.ok none, []⟩
  | _ => ⟨.ok (some []), []⟩

def reliable : Source :=
  fun _ _ => ⟨.ok (some []), []⟩

theorem failures_contained_mixed :
    let template := "%%REPORT=a%%1%%REPORT=b x=1%%2%%name%%%%REPORT=c%%3%%REPORT=d%%"
    let rendered (answer : Source) : Asked String :=
      (Engine.mk "" (some answer)).render 0 template [("name", .text "%%REPORT=e%%")]
    NeverCancelled unreliable ∧ NeverCancelled reliable ∧
      (rendered unreliable).queries.map (·.name) = ["a", "b", "c", "d"] ∧
      (rendered reliable).queries.map (·.name) = ["a", "b", "c", "d"] ∧
      (rendered unreliable).outcome.toOption = some "12%%REPORT=e%%3\n|Day|Count|\n|-|-|\n" := by
  intro template rendered
  have hunreliable : NeverCancelled unreliable := by
    rintro n q ⟨f, hf, hcancelled⟩
    unfold unreliable at hf
    split at hf <;> cases hf <;> cases hcancelled
  have hreliable : NeverCancelled reliable := by
    rintro n q ⟨f, hf, -⟩
    cases hf
  have hnames : (templateQueries template).map (·.name) = ["a", "b", "c", "d"] := by decide +kernel
  obtain ⟨-, hqueries, hqueries', -⟩ := failures_contained "" template
    [("name", .text "%%REPORT=e%%")] 0 hunreliable hreliable
  refine ⟨hunreliable, hreliable, ?_, ?_, ?_⟩
  · exact (congrArg (List.map (·.name)) hqueries).trans hnames
  · exact (congrArg (List.map (·.name)) hqueries').trans hnames
  · decide +kernel

end Courier.Template
