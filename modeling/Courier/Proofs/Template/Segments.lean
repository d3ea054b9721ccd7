import Courier.Proofs.Value.Entries
import Courier.Template.Render
import Mathlib.Data.List.Chain

/-!
# Templates by their segments

A template that is written segment by segment, as literal texts and tokens, is read as these segments
again, even where single percent signs stand next to tokens. So rendering it gives the meanings of its
segments one after another, and what takes the place of a token is not read as a template.
-/

namespace Courier.Template

open Report (Asked Source)

/-! ## Segments -/

/-- A part of a template, as it is written. -/
inductive Segment where
  | literal (text : List Char)
  | token (t : Token)
deriving DecidableEq, Repr

/-- There are two percent signs in a row. -/
def HasMark (cs : List Char) : Prop :=
  ['%', '%'] <:+: cs

instance (cs : List Char) : Decidable (HasMark cs) :=
  List.instDecidableIsInfixOfDecidableEq ['%', '%'] cs

/-- A token that can be written: its name is one, and its arguments end where they are meant to. -/
structure Token.Writable (t : Token) : Prop where
  name_ne_nil : t.name ≠ []
  name_chars : ∀ c ∈ t.name, isNameChar c = true
  same_line : ∀ args ∈ t.args, '\n' ∉ args
  no_mark : ∀ args ∈ t.args, ¬ HasMark args
  no_percent_end : ∀ args ∈ t.args, ¬ ['%'] <:+ args

instance (t : Token) : Decidable t.Writable :=
  decidable_of_iff
    (t.name ≠ [] ∧ t.name.all isNameChar = true ∧
      ∀ args ∈ t.args, '\n' ∉ args ∧ ¬ HasMark args ∧ ¬ ['%'] <:+ args)
    ⟨fun h => ⟨h.1, List.all_eq_true.mp h.2.1, fun a ha => (h.2.2 a ha).1, fun a ha => (h.2.2 a ha).2.1,
        fun a ha => (h.2.2 a ha).2.2⟩,
      fun h => ⟨h.name_ne_nil, List.all_eq_true.mpr h.name_chars, fun a ha =>
        ⟨h.same_line a ha, h.no_mark a ha, h.no_percent_end a ha⟩⟩⟩

namespace Segment

def chars : Segment → List Char
  | literal text => text
  | token t => t.chars

def isLiteral : Segment → Bool
  | literal _ => true
  | token _ => false

def Writable : Segment → Prop
  | literal text => ¬ HasMark text
  | token t => t.Writable

instance : (s : Segment) → Decidable s.Writable
  | literal text => inferInstanceAs (Decidable (¬ HasMark text))
  | token t => inferInstanceAs (Decidable t.Writable)

/-- What a segment is read as. -/
def pieces : Segment → List Piece
  | literal text => text.map .char
  | token t => [.token t]

end Segment

/-- Segments that can be written one after another; two literal texts would be read as one. -/
structure Writable (segments : List Segment) : Prop where
  each : ∀ s ∈ segments, s.Writable
  apart : segments.IsChain fun s s' => s.isLiteral = false ∨ s'.isLiteral = false

def written (segments : List Segment) : List Char :=
  segments.flatMap Segment.chars

/-! ## Reading tokens -/

theorem not_hasMark_of_cons {c : Char} {cs : List Char} (h : ¬ HasMark (c :: cs)) : ¬ HasMark cs :=
  fun hcs => h (hcs.trans (List.suffix_cons c cs).isInfix)

theorem not_hasMark_marks {cs : List Char} : ¬ ¬ HasMark ('%' :: '%' :: cs) := by
  intro h
  exact h ⟨[], cs, rfl⟩

/-- Arguments end at the first pair of percent signs behind them. -/
theorem argsBefore_append {args : List Char} (hline : '\n' ∉ args) (hmark : ¬ HasMark args)
    (hend : ¬ ['%'] <:+ args) (rest : List Char) :
    argsBefore (args ++ '%' :: '%' :: rest) = some args := by
  induction args with
  | nil => rfl
  | cons c args ih =>
    have hc : c ≠ '\n' := fun he => hline (he ▸ List.mem_cons_self)
    have ih' := ih (fun h => hline (List.mem_cons_of_mem c h)) (not_hasMark_of_cons hmark)
      fun h => hend (h.trans (List.suffix_cons c args))
    rw [List.cons_append, argsBefore]
    · rw [if_neg hc, ih', Option.map_some]
    · intro tail hpercent hrest
      -- The first sign would be the last character of the arguments, or one of a pair in them.
      cases args with
      | nil => exact hend (hpercent ▸ List.suffix_refl _)
      | cons d args =>
        obtain ⟨rfl, -⟩ := List.cons.inj hrest
        exact not_hasMark_marks (hpercent ▸ hmark)

theorem takeWhile_name {name rest : List Char} {c : Char} (hname : ∀ d ∈ name, isNameChar d = true)
    (hc : isNameChar c = false) : (name ++ c :: rest).takeWhile isNameChar = name := by
  rw [List.takeWhile_append_of_pos hname, List.takeWhile_cons_of_neg (by simp [hc]), List.append_nil]

theorem dropWhile_name {name rest : List Char} {c : Char} (hname : ∀ d ∈ name, isNameChar d = true)
    (hc : isNameChar c = false) : (name ++ c :: rest).dropWhile isNameChar = c :: rest := by
  rw [List.dropWhile_append_of_pos hname, List.dropWhile_cons_of_neg (by simp [hc])]

theorem token?_chars {t : Token} (h : t.Writable) (rest : List Char) :
    token? (t.chars ++ rest) = some t := by
  obtain ⟨name, args⟩ := t
  have hne : name.isEmpty = false := by simpa using h.name_ne_nil
  cases args with
  | none =>
    have hchars : (Token.mk name none).chars ++ rest = '%' :: '%' :: (name ++ '%' :: '%' :: rest) := by
      simp [Token.chars]
    rw [hchars, token?, takeWhile_name h.name_chars (by decide), dropWhile_name h.name_chars (by decide)]
    simp [hne]
  | some args =>
    have hchars : (Token.mk name (some args)).chars ++ rest =
        '%' :: '%' :: (name ++ '=' :: (args ++ '%' :: '%' :: rest)) := by
      simp [Token.chars]
    have hargs := argsBefore_append (h.same_line args rfl) (h.no_mark args rfl)
      (h.no_percent_end args rfl) rest
    rw [hchars, token?, takeWhile_name h.name_chars (by decide), dropWhile_name h.name_chars (by decide)]
    simp [hne, hargs]

theorem token?_of_ne {c : Char} (h : c ≠ '%') (cs : List Char) : token? (c :: cs) = none := by
  rw [token?]
  intro rest he
  exact h (List.cons.inj he).1

/-- A percent sign that no other one follows begins no token, and neither does one that stands before
a token. -/
theorem token?_percent {cs : List Char} (h : ['%', '%'] <+: cs ∨ ¬ ['%'] <+: cs) :
    token? ('%' :: cs) = none := by
  rcases h with ⟨rest, rfl⟩ | h
  · rfl
  · rw [token?]
    intro rest he
    exact h ⟨rest, (List.cons.inj he).2.symm⟩

theorem marked_chars (t : Token) (rest : List Char) : ['%', '%'] <+: t.chars ++ rest :=
  ⟨_, rfl⟩

/-! ## Reading segments -/

theorem piecesFrom_append (xs rest : List Char) :
    piecesFrom xs.length (xs ++ rest) = piecesFrom 0 rest := by
  induction xs with
  | nil => rfl
  | cons x xs ih => exact ih

theorem piecesFrom_token {t : Token} (h : t.Writable) (rest : List Char) :
    piecesFrom 0 (t.chars ++ rest) = .token t :: piecesFrom 0 rest := by
  obtain ⟨tail, htail⟩ : ∃ tail, t.chars = '%' :: tail := ⟨_, rfl⟩
  have htoken := token?_chars h rest
  rw [htail, List.cons_append] at htoken ⊢
  rw [piecesFrom, htoken]
  dsimp only
  rw [htail, List.length_cons, Nat.add_sub_cancel, piecesFrom_append]

/-- A literal text stands for itself if nothing follows it, or a token. -/
theorem piecesFrom_literal {text rest : List Char} (h : ¬ HasMark text)
    (hrest : rest = [] ∨ ['%', '%'] <+: rest) :
    piecesFrom 0 (text ++ rest) = text.map .char ++ piecesFrom 0 rest := by
  induction text with
  | nil => rfl
  | cons c text ih =>
    have hnone : token? (c :: (text ++ rest)) = none := by
      by_cases hc : c = '%'
      · subst hc
        apply token?_percent
        cases text with
        | nil =>
          rcases hrest with rfl | hmark
          · exact Or.inr (by simp)
          · exact Or.inl hmark
        | cons d text =>
          refine Or.inr fun hd => h ?_
          obtain rfl : '%' = d := (List.cons_prefix_cons.mp hd).1
          exact ⟨[], text, rfl⟩
      · exact token?_of_ne hc _
    rw [List.cons_append, piecesFrom, hnone]
    dsimp only
    rw [ih (not_hasMark_of_cons h), List.map_cons, List.cons_append]

theorem Writable.tail {s : Segment} {segments : List Segment} (h : Writable (s :: segments)) :
    Writable segments :=
  ⟨fun s' hs' => h.each s' (List.mem_cons_of_mem s hs'), h.apart.tail⟩

/-- What follows a literal text is a token, if anything. -/
theorem Writable.after_literal {text : List Char} {segments : List Segment}
    (h : Writable (.literal text :: segments)) :
    written segments = [] ∨ ['%', '%'] <+: written segments := by
  cases segments with
  | nil => exact Or.inl rfl
  | cons s segments =>
    have hapart := (List.isChain_cons_cons.mp h.apart).1
    cases s with
    | literal => simp [Segment.isLiteral] at hapart
    | token t => exact Or.inr (marked_chars t _)

/-- A template is read as the segments that it was written from. -/
theorem pieces_written {segments : List Segment} (h : Writable segments) :
    pieces (written segments) = segments.flatMap Segment.pieces := by
  rw [pieces]
  induction segments with
  | nil => rfl
  | cons s segments ih =>
    have hs := h.each s List.mem_cons_self
    rw [written, List.flatMap_cons, List.flatMap_cons, ← written, ← ih h.tail]
    cases s with
    | literal text => exact piecesFrom_literal hs h.after_literal
    | token t => exact piecesFrom_token hs _

/-! ## Meanings -/

/-- The value of a name in small letters. Of values whose names differ in case only the last one counts,
and the title of the site stands in for one that is not given. -/
def valueOf (siteTitle : String) (values : Entries) (name : String) : Option Value :=
  match values.reverse.find? fun e => Text.lower e.1 == name with
  | some e => some e.2
  | none => if name = siteTitleName ∧ siteTitle ≠ "" then some (.text siteTitle) else none

/-- What a segment means, when the source of reports answered `asked` queries before. -/
def Segment.meaning (engine : Engine) (values : Entries) (asked : Nat) : Segment → Asked String
  | literal text => ⟨.ok (String.ofList text), [], []⟩
  | token t =>
    let name := Text.lower (String.ofList t.name)
    let verbatim := String.ofList t.chars
    match t.args with
    | some args =>
      if name = reportName then reportText engine.source asked args else ⟨.ok verbatim, [], []⟩
    | none =>
      match valueOf engine.siteTitle values name with
      | none | some .null => ⟨.ok verbatim, [], []⟩
      | some v => ⟨.ok v.display, [], []⟩

/-- A text and the one that is asked for next. A failure ends the asking. -/
def joined (first others : Asked String) : Asked String :=
  match first.outcome with
  | .error f => ⟨.error f, first.queries, first.journal⟩
  | .ok text =>
    ⟨others.outcome.map (text ++ ·), first.queries ++ others.queries,
      first.journal ++ others.journal⟩

/-- The meanings of the segments one after another. -/
def meanings (engine : Engine) (values : Entries) (asked : Nat) : List Segment → Asked String
  | [] => ⟨.ok "", [], []⟩
  | s :: rest =>
    let first := s.meaning engine values asked
    joined first (meanings engine values (asked + first.queries.length) rest)

/-! ## Rendering -/

theorem get?_lookupTable (siteTitle : String) (values : Entries) (name : String) :
    Entries.get? (lookupTable siteTitle values) name = valueOf siteTitle values name := by
  have hnamed (k : String) :
      Entries.get? (Entries.ofList (values.map fun e => (Text.lower e.1, e.2))) k =
        (values.reverse.find? fun e => Text.lower e.1 == k).map (·.2) := by
    rw [Entries.get?_ofList, ← List.map_reverse, List.find?_map, Option.map_map]
    rfl
  rw [lookupTable, valueOf]
  split
  · rename_i hsite
    rw [hnamed]
    cases hfound : values.reverse.find? fun e => Text.lower e.1 == name with
    | some e => rfl
    | none =>
      rw [Option.map_none]
      dsimp only
      rw [if_neg]
      rintro ⟨rfl, htitle⟩
      rcases hsite with hempty | hgiven
      · exact htitle (String.isEmpty_iff.mp hempty)
      · rw [hnamed, hfound] at hgiven
        cases hgiven
  · rename_i hsite
    obtain ⟨htitle, hmissing⟩ := not_or.mp hsite
    rw [hnamed, Option.not_isSome_iff_eq_none, Option.map_eq_none_iff] at hmissing
    rw [Entries.get?_insert, hnamed]
    by_cases hname : siteTitleName = name
    · subst hname
      rw [if_pos rfl, hmissing]
      simpa using htitle
    · rw [if_neg hname]
      cases values.reverse.find? fun e => Text.lower e.1 == name with
      | some e => rfl
      | none => simp [Ne.symm hname]

/-- A token is replaced by its meaning. -/
theorem tokenText_eq (engine : Engine) (values : Entries) (asked : Nat) (t : Token) :
    tokenText engine.source (lookupTable engine.siteTitle values) asked t =
      (Segment.token t).meaning engine values asked := by
  rewrite [tokenText, Segment.meaning, get?_lookupTable]
  rfl

/-- The texts of a list, joined. -/
def inOne (texts : Asked (List String)) : Asked String :=
  ⟨texts.outcome.map String.join, texts.queries, texts.journal⟩

variable {source : Option Source} {table : Entries}

theorem inOne_cons (asked : Nat) (piece : Piece) (rest : List Piece) :
    inOne (renderPieces source table asked (piece :: rest)) =
      joined (pieceText source table asked piece)
        (inOne (renderPieces source table
          (asked + (pieceText source table asked piece).queries.length) rest)) := by
  cases hfirst : (pieceText source table asked piece).outcome with
  | error f => simp only [renderPieces, joined, inOne, hfirst, Except.map]
  | ok text =>
    simp only [renderPieces, joined, inOne, hfirst]
    cases (renderPieces source table (asked + (pieceText source table asked piece).queries.length)
      rest).outcome with
    | error f => rfl
    | ok texts => simp only [Except.map, String.join_cons]

theorem joined_empty (others : Asked String) : joined ⟨.ok "", [], []⟩ others = others := by
  obtain ⟨outcome, queries, journal⟩ := others
  cases outcome with
  | error f => rfl
  | ok text => simp [joined, Except.map]

theorem joined_char (c : Char) (text : List Char) (others : Asked String) :
    joined ⟨.ok c.toString, [], []⟩ (joined ⟨.ok (String.ofList text), [], []⟩ others) =
      joined ⟨.ok (String.ofList (c :: text)), [], []⟩ others := by
  obtain ⟨outcome, queries, journal⟩ := others
  cases outcome with
  | error f => rfl
  | ok rest =>
    simp [joined, Except.map, String.append_assoc]

theorem inOne_literal (asked : Nat) (text : List Char) (rest : List Piece) :
    inOne (renderPieces source table asked (text.map .char ++ rest)) =
      joined ⟨.ok (String.ofList text), [], []⟩ (inOne (renderPieces source table asked rest)) := by
  induction text with
  | nil => exact (joined_empty _).symm
  | cons c text ih =>
    rw [List.map_cons, List.cons_append, inOne_cons, ← joined_char, ← ih]
    rfl

/-- Pieces read from segments are rendered to what the segments mean. -/
theorem renderPieces_segments (engine : Engine) (values : Entries) (asked : Nat)
    (segments : List Segment) :
    inOne (renderPieces engine.source (lookupTable engine.siteTitle values) asked
        (segments.flatMap Segment.pieces)) =
      meanings engine values asked segments := by
  induction segments generalizing asked with
  | nil => rfl
  | cons s segments ih =>
    rw [List.flatMap_cons, meanings, ← ih]
    cases s with
    | literal text => exact inOne_literal asked text _
    | token t =>
      rw [← tokenText_eq]
      exact inOne_cons asked (.token t) _

/-! ## Failures -/

/-- The source of reports may fail, but is not cancelled. -/
def Engine.Uncancelled (engine : Engine) : Prop :=
  ∀ answer ∈ engine.source, ∀ n query f, (answer n query).outcome = .error f →
    f.isCancellation = false

theorem tableOf_ok {name : String} {answer : Except Failure (Option Report.Series)}
    (h : ∀ f, answer = .error f → f.isCancellation = false) :
    ∃ shown, (Report.tableOf name answer).outcome = .ok shown := by
  unfold Report.tableOf
  split
  · exact ⟨_, rfl⟩
  · rename_i f
    rw [if_neg (by simp [h f rfl])]
    split
    · exact ⟨_, rfl⟩
    · exact ⟨_, rfl⟩

variable {engine : Engine}

theorem reportText_ok (h : engine.Uncancelled) (asked : Nat) (args : List Char) :
    ∃ text, (reportText engine.source asked args).outcome = .ok text := by
  rw [reportText]
  split
  rename_i name filters _
  split
  · exact ⟨_, rfl⟩
  · split
    rename_i filters records _
    obtain ⟨shown, hshown⟩ : ∃ shown, (Report.fetch engine.source asked
        (Text.lower (String.ofList name)) filters).outcome = .ok shown := by
      unfold Report.fetch
      split
      · exact ⟨_, rfl⟩
      · rename_i answer hsource
        exact tableOf_ok fun f hf => h answer hsource _ _ f hf
    dsimp only
    rw [hshown]
    exact ⟨_, rfl⟩

theorem meaning_ok (h : engine.Uncancelled) (values : Entries) (asked : Nat) (s : Segment) :
    ∃ text, (s.meaning engine values asked).outcome = .ok text := by
  cases s with
  | literal text => exact ⟨_, rfl⟩
  | token t =>
    dsimp only [Segment.meaning]
    split
    · split
      · exact reportText_ok h asked _
      · exact ⟨_, rfl⟩
    · split
      · exact ⟨_, rfl⟩
      · exact ⟨_, rfl⟩
      · exact ⟨_, rfl⟩

/-- Without a cancellation each segment has a text, and the template is rendered to all of them. -/
theorem meanings_ok (h : engine.Uncancelled) (values : Entries) (asked : Nat)
    (segments : List Segment) :
    ∃ texts, (meanings engine values asked segments).outcome = .ok (String.join texts) ∧
      List.Forall₂ (fun s text => ∃ n, (s.meaning engine values n).outcome = .ok text)
        segments texts := by
  induction segments generalizing asked with
  | nil => exact ⟨[], rfl, .nil⟩
  | cons s segments ih =>
    obtain ⟨text, htext⟩ := meaning_ok h values asked s
    obtain ⟨texts, htexts, hall⟩ := ih (asked + (s.meaning engine values asked).queries.length)
    refine ⟨text :: texts, ?_, .cons ⟨asked, htext⟩ hall⟩
    rw [meanings, joined, htext]
    dsimp only
    rw [htexts, String.join_cons]
    rfl

/-- A template is rendered to the meanings of the segments that it was written from, one after another.
It has a text unless the source of reports is cancelled. -/
theorem render_written (engine : Engine) (values : Entries) (asked : Nat) (segments : List Segment)
    (h : Writable segments) :
    engine.render asked (String.ofList (written segments)) values =
        meanings engine values asked segments ∧
      (engine.Uncancelled →
        ∃ texts, (engine.render asked (String.ofList (written segments)) values).outcome =
            .ok (String.join texts) ∧
          List.Forall₂ (fun s text => ∃ n, (s.meaning engine values n).outcome = .ok text)
            segments texts) := by
  have hrender : engine.render asked (String.ofList (written segments)) values =
      meanings engine values asked segments := by
    rw [← renderPieces_segments, ← pieces_written h, Engine.render, String.toList_ofList]
    rfl
  rw [hrender]
  exact ⟨rfl, fun huncancelled => meanings_ok huncancelled values asked segments⟩

/-- Percent signs next to tokens, tokens next to tokens, and values that look like tokens. -/
def percentSigns : List Segment :=
  [.literal "Up 5%".toList, .token ⟨"Name".toList, none⟩, .token ⟨"gone".toList, none⟩,
    .literal "%".toList, .token ⟨"Report".toList, some "daily user=%ann".toList⟩,
    .literal "% of ".toList, .token ⟨"SITE_TITLE".toList, none⟩, .token ⟨"x".toList, some []⟩]

theorem writable_percentSigns : Writable percentSigns := by
  constructor
  · decide +kernel
  · simp [percentSigns, Segment.isLiteral]

/-- A source that has one empty report, and a title that looks like a token. -/
def emptyReports : Engine :=
  ⟨"%%Name%%", some fun _ _ => ⟨.ok (some []), []⟩⟩

theorem render_written_percentSigns :
    Writable percentSigns ∧
      (emptyReports.render 0 (String.ofList (written percentSigns))
          [("NAME", .text "%%x%%"), ("gone", .null)]).outcome.toOption =
        some "Up 5%%%x%%%%gone%%%\n|Day|Count|\n|-|-|\n% of %%Name%%%%x=%%" := by
  have hmeanings : (meanings emptyReports [("NAME", .text "%%x%%"), ("gone", .null)] 0
      percentSigns).outcome.toOption =
        some "Up 5%%%x%%%%gone%%%\n|Day|Count|\n|-|-|\n% of %%Name%%%%x=%%" := by decide +kernel
  obtain ⟨hrender, -⟩ := render_written emptyReports [("NAME", .text "%%x%%"), ("gone", .null)] 0
    percentSigns writable_percentSigns
  exact ⟨writable_percentSigns, hrender ▸ hmeanings⟩

end Courier.Template
