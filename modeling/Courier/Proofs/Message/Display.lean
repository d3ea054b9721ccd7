import Courier.Proofs.Message.Cuts

/-!
# What a marked-up text displays

Whoever displays a marked-up text takes its tags away and puts the characters for its entities. For the
text of a message this gives its title and its body again, whatever stands in them: no title and no body
adds a tag, and none loses a character but those that are trimmed.
-/

namespace Courier.Message

open Text (isBlank trimWhile)

/-- The text with the characters for its entities. An entity is read once: what it stands for may look
like the start of another one. -/
def unescape : List Char → List Char
  | '&' :: 'a' :: 'm' :: 'p' :: ';' :: rest => '&' :: unescape rest
  | '&' :: 'l' :: 't' :: ';' :: rest => '<' :: unescape rest
  | '&' :: 'g' :: 't' :: ';' :: rest => '>' :: unescape rest
  | '&' :: 'q' :: 'u' :: 'o' :: 't' :: ';' :: rest => '"' :: unescape rest
  | '&' :: '#' :: 'x' :: '2' :: '7' :: ';' :: rest => '\'' :: unescape rest
  | c :: rest => c :: unescape rest
  | [] => []

theorem unescape_cons {c : Char} (hc : c ≠ '&') (rest : List Char) :
    unescape (c :: rest) = c :: unescape rest := by
  rw [unescape.eq_def]
  split
  case h_6 heq =>
    cases heq
    rfl
  all_goals
    rename_i heq
    cases heq
    try exact absurd rfl hc

theorem unescape_escapeChar (c : Char) (rest : List Char) :
    unescape (escapeChar c ++ rest) = c :: unescape rest := by
  unfold escapeChar
  split_ifs with hamp hless hgreater hquote hapostrophe
  · rw [hamp]
    rfl
  · rw [hless]
    rfl
  · rw [hgreater]
    rfl
  · rw [hquote]
    rfl
  · rw [hapostrophe]
    rfl
  · exact unescape_cons hamp rest

theorem unescape_escape_append (cs rest : List Char) :
    unescape (escape cs ++ rest) = cs ++ unescape rest := by
  induction cs with
  | nil => rfl
  | cons c cs ih =>
    rw [escape, List.flatMap_cons, List.append_assoc, unescape_escapeChar]
    exact congrArg (c :: ·) ih

theorem unescape_escape (cs : List Char) : unescape (escape cs) = cs := by
  have h := unescape_escape_append cs []
  rwa [List.append_nil, unescape, List.append_nil] at h

/-- A text without a tag. -/
def TagFree (cs : List Char) : Prop :=
  '<' ∉ cs ∧ '>' ∉ cs

theorem TagFree.append {cs ds : List Char} (h : TagFree cs) (h' : TagFree ds) : TagFree (cs ++ ds) :=
  ⟨by simp [h.1, h'.1], by simp [h.2, h'.2]⟩

theorem tagFree_escape (cs : List Char) : TagFree (escape cs) :=
  escape_plain cs

/-- The text displays a title and a body: the title in bold, on a line of its own, and then the body.
If the title is blank, there is the body alone and no tag. -/
inductive Displays (title body : List Char) : List Char → Prop where
  | titled {inner rest : List Char} (htitle : trimWhile isBlank title ≠ [])
    (hinner : TagFree inner) (hrest : TagFree rest)
    (hbold : unescape inner = trimWhile isBlank title)
    (hwhole : unescape (inner ++ rest) =
      trimWhile isBlank title ++ '\n' :: trimWhile (· == '\n') body) :
    Displays title body ("<b>".toList ++ inner ++ "</b>".toList ++ rest)
  | untitled {text : List Char} (htitle : trimWhile isBlank title = []) (htext : TagFree text)
    (hwhole : unescape text = trimWhile (· == '\n') body) : Displays title body text

namespace Telegram

theorem displays_markedUp (title body : List Char) : Displays title body (markedUp title body) := by
  -- The marks of the markup are neither blank nor line ends, so trimming and escaping can change places.
  have htrimTitle := trimWhile_escape (p := isBlank) (forall_marks.mpr (by decide)) title
  have htrimBody := trimWhile_escape (p := (· == '\n')) (forall_marks.mpr (by decide)) body
  rw [markedUp, format, htrimTitle, htrimBody]
  simp only [escape_isEmpty]
  by_cases htitle : trimWhile isBlank title = []
  · rw [htitle, List.isEmpty_nil, if_pos rfl]
    exact .untitled htitle (tagFree_escape _) (unescape_escape _)
  · rw [if_neg (by simpa using htitle)]
    have htext : "<b>".toList ++ escape (trimWhile isBlank title) ++ "</b>\n".toList ++
        escape (trimWhile (· == '\n') body) =
          "<b>".toList ++ escape (trimWhile isBlank title) ++ "</b>".toList ++
            '\n' :: escape (trimWhile (· == '\n') body) := by
      simp
    rw [htext]
    refine .titled htitle (tagFree_escape _) ?_ (unescape_escape _) ?_
    · exact @TagFree.append ['\n'] _ ⟨by decide, by decide⟩ (tagFree_escape _)
    · rw [unescape_escape_append, unescape_cons (by decide), unescape_escape]

/-- The text that is cut into posts displays the title and the body, for every title and every body. -/
theorem sent_text_displays_message (title body : String) (recipients : List Value) :
    posts (.text title) (.text body) recipients =
        (resolveAll recipients).map (fun chats =>
          postsTo chats (markedUp title.toList body.toList)) ∧
      Displays title.toList body.toList (markedUp title.toList body.toList) := by
  constructor
  · rw [posts]
    cases resolveAll recipients with
    | error f => rfl
    | ok chats => rfl
  · exact displays_markedUp title.toList body.toList

/-- Tags and entities in a title and a body are displayed as they are. -/
example : unescape (markedUp "<i>&amp;</i>".toList "a < b\n\n".toList) =
    "<b><i>&amp;</i></b>\na < b".toList := by
  decide +kernel

end Telegram

end Courier.Message
