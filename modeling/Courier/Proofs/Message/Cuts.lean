import Courier.Message.Telegram
import Courier.Proofs.Message.Fragments
import Courier.Proofs.Outbox.Operations
import Mathlib.Data.List.DropRight
import Mathlib.Data.List.Induction

/-!
# Where marked-up texts are cut

A long text is marked up first and cut afterwards, at line ends or at the limit, whatever stands
there. The chunks are fragments of markup exactly if each cut falls between two units of the text.
-/

namespace Courier.Message

open Text (isBlank dropEndWhile trimWhile)

/-! ## The units of a marked-up text -/

theorem IsUnit.ends {u : List Char} (h : IsUnit u) :
    (∃ c, u = [c]) ∨
      ∃ c v d, u = c :: (v ++ [d]) ∧ isBlank c = false ∧ isBlank d = false := by
  cases h with
  | @ordinary c => exact Or.inl ⟨c, rfl⟩
  | entity he =>
    right
    simp only [entities, List.map_cons, List.map_nil, List.mem_cons, List.not_mem_nil, or_false] at he
    rcases he with rfl | rfl | rfl | rfl | rfl
    · exact ⟨'&', "amp".toList, ';', rfl, rfl, rfl⟩
    · exact ⟨'&', "lt".toList, ';', rfl, rfl, rfl⟩
    · exact ⟨'&', "gt".toList, ';', rfl, rfl, rfl⟩
    · exact ⟨'&', "quot".toList, ';', rfl, rfl, rfl⟩
    · exact ⟨'&', "#x27".toList, ';', rfl, rfl, rfl⟩
  | @bold inner =>
    exact Or.inr ⟨'<', "b>".toList ++ inner ++ "</b".toList, '>', by simp, rfl, rfl⟩

theorem escapeChar_isUnit (c : Char) : IsUnit (escapeChar c) := by
  unfold escapeChar
  split
  · exact .entity (by decide)
  split
  · exact .entity (by decide)
  split
  · exact .entity (by decide)
  split
  · exact .entity (by decide)
  split
  · exact .entity (by decide)
  · rename_i hamp hlt hgt _ _
    exact .ordinary (by simp [isOrdinary, hamp, hlt, hgt])

theorem escape_plain (cs : List Char) : '<' ∉ escape cs ∧ '>' ∉ escape cs := by
  have hentity : ∀ e ∈ entities, '<' ∉ e ∧ '>' ∉ e := by decide
  have hchar (c : Char) : '<' ∉ escapeChar c ∧ '>' ∉ escapeChar c := by
    have hunit := escapeChar_isUnit c
    generalize he : escapeChar c = u at hunit
    cases hunit with
    | ordinary hc =>
      simp only [isOrdinary, Bool.and_eq_true, bne_iff_ne] at hc
      simp [Ne.symm hc.1.1, Ne.symm hc.1.2]
    | entity he => exact hentity u he
    | bold =>
      unfold escapeChar at he
      repeat' split at he
      all_goals simp at he
  constructor
  · intro h
    obtain ⟨c, -, hc⟩ := List.mem_flatMap.mp h
    exact (hchar c).1 hc
  · intro h
    obtain ⟨c, -, hc⟩ := List.mem_flatMap.mp h
    exact (hchar c).2 hc

def bold (title : List Char) : List Char :=
  "<b>".toList ++ escape title ++ "</b>".toList

/-- The units of a message: its title in bold and a line end, if the title is not blank, and the
characters of its body. -/
def units (title body : List Char) : List (List Char) :=
  let title := trimWhile isBlank title
  let body := trimWhile (· == '\n') body
  (if title.isEmpty then [] else [bold title, ['\n']]) ++ body.map escapeChar

theorem isUnit_of_mem_units {title body u : List Char} (h : u ∈ units title body) : IsUnit u := by
  rcases List.mem_append.mp h with h | h
  · have hfragment : Fragment (escape (trimWhile isBlank title)) := by
      apply fragment_flatten
      intro u hu
      obtain ⟨c, -, rfl⟩ := List.mem_map.mp hu
      exact escapeChar_isUnit c
    split at h
    · cases h
    · rcases List.mem_cons.mp h with rfl | h
      · exact .bold hfragment (escape_plain _)
      · rw [List.mem_singleton.mp h]
        exact .ordinary rfl
  · obtain ⟨c, -, rfl⟩ := List.mem_map.mp h
    exact escapeChar_isUnit c

/-! ## Trimming -/

section trim
variable {p : Char → Bool}

/-- The characters that have a meaning in markup, and the ends of entities. -/
def marks : List Char :=
  ['&', '<', '>', '"', '\'', ';']

theorem forall_marks {P : Char → Prop} :
    (∀ c ∈ marks, P c) ↔ P '&' ∧ P '<' ∧ P '>' ∧ P '"' ∧ P '\'' ∧ P ';' := by
  simp only [marks, List.forall_mem_cons, List.not_mem_nil, false_implies, implies_true, and_true]

theorem escapeChar_of_not_mark {c : Char} (hc : c ∉ marks) : escapeChar c = [c] := by
  simp only [marks, List.mem_cons, List.not_mem_nil, or_false, not_or] at hc
  simp [escapeChar, hc]

/-- A character that is kept when a text is trimmed is kept when it is escaped first. -/
theorem escapeChar_ends (hp : ∀ c ∈ marks, p c = false) {c : Char} (hc : p c = false) :
    (∃ d v, escapeChar c = d :: v ∧ p d = false) ∧
      ∃ v d, escapeChar c = v ++ [d] ∧ p d = false := by
  have hamp : p '&' = false := hp '&' (by decide)
  have hend : p ';' = false := hp ';' (by decide)
  unfold escapeChar
  split
  · exact ⟨⟨'&', _, rfl, hamp⟩, ⟨"&amp".toList, ';', rfl, hend⟩⟩
  split
  · exact ⟨⟨'&', _, rfl, hamp⟩, ⟨"&lt".toList, ';', rfl, hend⟩⟩
  split
  · exact ⟨⟨'&', _, rfl, hamp⟩, ⟨"&gt".toList, ';', rfl, hend⟩⟩
  split
  · exact ⟨⟨'&', _, rfl, hamp⟩, ⟨"&quot".toList, ';', rfl, hend⟩⟩
  split
  · exact ⟨⟨'&', _, rfl, hamp⟩, ⟨"&#x27".toList, ';', rfl, hend⟩⟩
  · exact ⟨⟨c, [], rfl, hc⟩, ⟨[], c, rfl, hc⟩⟩

theorem escapeChar_trimmed (hp : ∀ c ∈ marks, p c = false) {c : Char} (hc : p c = true) :
    escapeChar c = [c] := by
  apply escapeChar_of_not_mark
  intro hmark
  rw [hp c hmark] at hc
  cases hc

theorem dropWhile_escape (hp : ∀ c ∈ marks, p c = false) (cs : List Char) :
    (escape cs).dropWhile p = escape (cs.dropWhile p) := by
  induction cs with
  | nil => rfl
  | cons c cs ih =>
    cases hc : p c with
    | true =>
      have hself := escapeChar_trimmed hp hc
      rw [List.dropWhile_cons_of_pos hc, ← ih, escape, List.flatMap_cons, hself,
        List.singleton_append, List.dropWhile_cons_of_pos hc]
      rfl
    | false =>
      obtain ⟨d, v, hd, hpd⟩ := (escapeChar_ends hp hc).1
      rw [List.dropWhile_cons_of_neg (by simp [hc]), escape, List.flatMap_cons, hd, List.cons_append,
        List.dropWhile_cons_of_neg (by simp [hpd])]

theorem dropEndWhile_escape (hp : ∀ c ∈ marks, p c = false) (cs : List Char) :
    dropEndWhile p (escape cs) = escape (dropEndWhile p cs) := by
  induction cs using List.reverseRecOn with
  | nil => rfl
  | append_singleton cs c ih =>
    have hconcat : escape (cs ++ [c]) = escape cs ++ escapeChar c := by simp [escape]
    cases hc : p c with
    | true =>
      have hself := escapeChar_trimmed hp hc
      rw [hconcat, hself]
      change (escape cs ++ [c]).rdropWhile p = escape ((cs ++ [c]).rdropWhile p)
      rw [List.rdropWhile_concat_pos _ _ _ hc, List.rdropWhile_concat_pos _ _ _ hc]
      exact ih
    | false =>
      obtain ⟨v, d, hd, hpd⟩ := (escapeChar_ends hp hc).2
      change (escape (cs ++ [c])).rdropWhile p = escape ((cs ++ [c]).rdropWhile p)
      rw [List.rdropWhile_concat_neg _ _ _ (by simp [hc]), hconcat, hd, ← List.append_assoc,
        List.rdropWhile_concat_neg _ _ _ (by simp [hpd])]

/-- What is trimmed has no meaning in markup, so a text may be escaped before or after. -/
theorem trimWhile_escape (hp : ∀ c ∈ marks, p c = false) (cs : List Char) :
    trimWhile p (escape cs) = escape (trimWhile p cs) := by
  rw [trimWhile, dropWhile_escape hp, dropEndWhile_escape hp]
  rfl

end trim

theorem escape_isEmpty (cs : List Char) : (escape cs).isEmpty = cs.isEmpty := by
  cases cs with
  | nil => rfl
  | cons c cs =>
    have hunit := escapeChar_isUnit c
    rcases hunit.ends with ⟨d, hd⟩ | ⟨d, v, e, hd, -⟩
    · simp [escape, hd]
    · simp [escape, hd]

theorem flatten_units (title body : List Char) :
    (units title body).flatten = Telegram.markedUp title body := by
  have htitle := trimWhile_escape (p := isBlank) (forall_marks.mpr (by decide)) title
  have hbody := trimWhile_escape (p := (· == '\n')) (forall_marks.mpr (by decide)) body
  simp only [units, Telegram.markedUp, format, htitle, hbody, escape_isEmpty]
  split
  · simp [escape, List.flatMap]
  · simp [bold, escape, List.flatMap]

/-! ## Places in a text -/

/-- The place falls between two units, or at one of the ends. -/
def Boundary (us : List (List Char)) (n : Nat) : Prop :=
  ∃ k, (us.take k).flatten.length = n

theorem boundary_or_inside (us : List (List Char)) {n : Nat} (h : n ≤ us.flatten.length) :
    Boundary us n ∨ ∃ vs u ws m, us = vs ++ u :: ws ∧ 0 < m ∧ m < u.length ∧
      n = vs.flatten.length + m := by
  induction us generalizing n with
  | nil =>
    have hn : n = 0 := by simpa using h
    exact Or.inl ⟨0, by simp [hn]⟩
  | cons u us ih =>
    rw [List.flatten_cons, List.length_append] at h
    by_cases hzero : n = 0
    · exact Or.inl ⟨0, by simp [hzero]⟩
    by_cases hu : n < u.length
    · exact Or.inr ⟨[], u, us, n, rfl, by omega, hu, by simp⟩
    · rcases ih (n := n - u.length) (by omega) with ⟨k, hk⟩ | ⟨vs, v, ws, m, rfl, hm, hlt, hn⟩
      · refine Or.inl ⟨k + 1, ?_⟩
        rw [List.take_succ_cons, List.flatten_cons, List.length_append, hk]
        omega
      · refine Or.inr ⟨u :: vs, v, ws, m, rfl, hm, hlt, ?_⟩
        rw [List.flatten_cons, List.length_append]
        omega

theorem flatten_take_drop (us : List (List Char)) (k : Nat) :
    us.flatten = (us.take k).flatten ++ (us.drop k).flatten := by
  rw [← List.flatten_append, List.take_append_drop]

/-- A place behind a boundary is a boundary if it is one of what follows there. -/
theorem boundary_drop (us : List (List Char)) (k n : Nat) :
    Boundary us ((us.take k).flatten.length + n) ↔ Boundary (us.drop k) n := by
  constructor
  · rintro ⟨j, hj⟩
    rcases Nat.le_total k j with hle | hle
    · obtain ⟨i, rfl⟩ := Nat.exists_eq_add_of_le hle
      rw [List.take_add, List.flatten_append, List.length_append] at hj
      exact ⟨i, by omega⟩
    · obtain ⟨i, rfl⟩ := Nat.exists_eq_add_of_le hle
      rw [List.take_add, List.flatten_append, List.length_append] at hj
      exact ⟨0, by simp; omega⟩
  · rintro ⟨j, hj⟩
    refine ⟨k + j, ?_⟩
    rw [List.take_add, List.flatten_append, List.length_append, hj]

section boundary
variable {us : List (List Char)} {k n : Nat} (hk : (us.take k).flatten.length = n)
include hk

theorem take_boundary : us.flatten.take n = (us.take k).flatten := by
  rw [flatten_take_drop us k, List.take_left' hk]

theorem drop_boundary : us.flatten.drop n = (us.drop k).flatten := by
  rw [flatten_take_drop us k, List.drop_left' hk]

end boundary

/-! ## Chunks -/

/-- The places of the cuts, counted from the start of the text. -/
def cuts (limit : Nat) (cs : List Char) : List Nat :=
  if limit < cs.length ∧ (afterCut limit cs).length < cs.length then
    cutAt limit cs ::
      (cuts limit (afterCut limit cs)).map (cs.length - (afterCut limit cs).length + ·)
  else []
termination_by cs.length
decreasing_by omega

theorem lastLineEnd_le (cs : List Char) : lastLineEnd cs ≤ cs.length := by
  unfold lastLineEnd
  split <;> omega

theorem cutAt_le (limit : Nat) (cs : List Char) : cutAt limit cs ≤ limit := by
  have hle := lastLineEnd_le (cs.take limit)
  have htake := List.length_take_le limit cs
  simp only [cutAt]
  split <;> omega

section chunks
variable {us : List (List Char)} (h : ∀ u ∈ us, IsUnit u)
include h

theorem fragment_trimmed : Fragment (dropEndWhile isBlank us.flatten) := by
  induction us using List.reverseRecOn with
  | nil => exact .nil
  | append_singleton us u ih =>
    have hus : ∀ v ∈ us, IsUnit v := fun v hv => h v (List.mem_append_left _ hv)
    have hu : IsUnit u := h u (by simp)
    have hflatten : (us ++ [u]).flatten = us.flatten ++ u := by simp
    change Fragment ((us ++ [u]).flatten.rdropWhile isBlank)
    rcases hu.ends with ⟨c, rfl⟩ | ⟨c, v, d, rfl, -, hd⟩
    · rw [hflatten]
      cases hc : isBlank c with
      | true =>
        rw [List.rdropWhile_concat_pos _ _ _ hc]
        exact ih hus
      | false =>
        rw [List.rdropWhile_concat_neg _ _ _ (by simp [hc]), ← hflatten]
        exact fragment_flatten h
    · have hsame : (us ++ [c :: (v ++ [d])]).flatten.rdropWhile isBlank =
          (us ++ [c :: (v ++ [d])]).flatten := by
        rw [hflatten, ← List.cons_append, ← List.append_assoc,
          List.rdropWhile_concat_neg _ _ _ (by simp [hd])]
      rw [hsame]
      exact fragment_flatten h

/-- A chunk that ends inside a unit is no fragment. -/
theorem not_fragment_trimmed {vs ws : List (List Char)} {u : List Char} {m : Nat}
    (hus : us = vs ++ u :: ws) (hm : 0 < m) (hlt : m < u.length) :
    ¬ Fragment (dropEndWhile isBlank (vs.flatten ++ u.take m)) := by
  have hu : IsUnit u := h u (by simp [hus])
  have hvs : Fragment vs.flatten := fragment_flatten fun v hv => h v (by simp [hus, hv])
  rcases hu.ends with ⟨c, rfl⟩ | ⟨c, v, d, hends, hc, -⟩
  · rw [List.length_singleton] at hlt
    omega
  have hmem : c ∈ u.take m := by
    obtain ⟨m, rfl⟩ := Nat.exists_eq_add_of_lt hm
    simp [hends]
  have hne : (u.take m).rdropWhile isBlank ≠ [] := by
    intro hnil
    have hall := List.rdropWhile_eq_nil_iff.mp hnil c hmem
    rw [hc] at hall
    cases hall
  have hstart := List.rdropWhile_prefix isBlank (l := u.take m)
  have htrim : dropEndWhile isBlank (vs.flatten ++ u.take m) =
      vs.flatten ++ (u.take m).rdropWhile isBlank := by
    have hkept : ((u.take m).reverse.dropWhile isBlank).isEmpty = false := by
      rw [List.isEmpty_eq_false_iff]
      intro hnil
      exact hne (by rw [List.rdropWhile, hnil, List.reverse_nil])
    rw [dropEndWhile, List.reverse_append, List.dropWhile_append, hkept,
      if_neg Bool.false_ne_true, List.reverse_append, List.reverse_reverse, List.rdropWhile]
  rw [htrim]
  apply hu.not_fragment (hstart.trans (List.take_prefix m u)) hne _ hvs
  intro heq
  have hlength := hstart.length_le
  rw [heq, List.length_take] at hlength
  omega

/-- Line ends that are left out behind a cut are units. -/
theorem dropWhile_lineEnd : ∃ k, us.flatten.dropWhile (· == '\n') = (us.drop k).flatten := by
  induction us with
  | nil => exact ⟨0, rfl⟩
  | cons u us ih =>
    obtain ⟨k, hk⟩ := ih fun v hv => h v (List.mem_cons_of_mem u hv)
    have hkept {c : Char} {v : List Char} (hu : u = c :: v) (hc : c ≠ '\n') :
        ∃ k, (u :: us).flatten.dropWhile (· == '\n') = ((u :: us).drop k).flatten := by
      refine ⟨0, ?_⟩
      rw [List.flatten_cons, hu, List.cons_append, List.dropWhile_cons_of_neg (by simpa using hc)]
      rfl
    rcases (h u List.mem_cons_self).ends with ⟨c, hu⟩ | ⟨c, v, d, hu, hblank, -⟩
    · by_cases hc : c = '\n'
      · refine ⟨k + 1, ?_⟩
        rw [List.flatten_cons, hu, hc, List.singleton_append, List.dropWhile_cons_of_pos (by simp), hk]
        rfl
      · exact hkept hu hc
    · refine hkept hu fun hc => ?_
      rw [hc] at hblank
      cases hblank

theorem chunksOf_fragments_iff (limit : Nat) :
    (∀ chunk ∈ chunksOf limit us.flatten, Fragment chunk) ↔
      ∀ n ∈ cuts limit us.flatten, Boundary us n := by
  generalize hlength : us.flatten.length = length
  induction length using Nat.strong_induction_on generalizing us with
  | _ length ih =>
  rw [chunksOf, cuts]
  by_cases hcut : limit < us.flatten.length ∧ (afterCut limit us.flatten).length < us.flatten.length
  · rw [if_pos hcut, if_pos hcut, List.forall_mem_cons, List.forall_mem_cons, List.forall_mem_map]
    have hle := (cutAt_le limit us.flatten).trans hcut.1.le
    have htrimmed (k : Nat) (hk : (us.take k).flatten.length = cutAt limit us.flatten) :
        Fragment (dropEndWhile isBlank (us.flatten.take (cutAt limit us.flatten))) := by
      rw [take_boundary hk]
      exact fragment_trimmed fun u hu => h u (List.mem_of_mem_take hu)
    rcases boundary_or_inside us hle with ⟨k, hk⟩ | ⟨vs, u, ws, m, hus, hm, hlt, hn⟩
    · obtain ⟨j, hj⟩ := dropWhile_lineEnd fun u hu => h u (List.mem_of_mem_drop (i := k) hu)
      have hafter : afterCut limit us.flatten = (us.drop (k + j)).flatten := by
        rw [afterCut, drop_boundary hk, hj, List.drop_drop]
      have hplace : us.flatten.length - (us.drop (k + j)).flatten.length =
          (us.take (k + j)).flatten.length := by
        have hsum := congrArg List.length (flatten_take_drop us (k + j))
        rw [List.length_append] at hsum
        omega
      have hshorter := hcut.2
      rw [hafter, hlength] at hshorter
      have hrest := ih _ hshorter (fun u hu => h u (List.mem_of_mem_drop hu)) rfl
      have hboundary : Boundary us (cutAt limit us.flatten) := ⟨k, hk⟩
      simp only [htrimmed k hk, hboundary, hafter, hplace, hrest, boundary_drop, true_and]
    · have hchunk := not_fragment_trimmed h hus hm hlt
      have htake : us.flatten.take (cutAt limit us.flatten) = vs.flatten ++ u.take m := by
        rw [hn, hus, List.flatten_append, List.flatten_cons, List.take_length_add_append,
          List.take_append_of_le_length hlt.le]
      rw [← htake] at hchunk
      constructor
      · intro hall
        exact absurd hall.1 hchunk
      · rintro ⟨⟨k, hk⟩, -⟩
        exact absurd (htrimmed k hk) hchunk
  · rw [if_neg hcut, if_neg hcut]
    have hwhole : Fragment us.flatten := fragment_flatten h
    split
    · simp
    · simpa using hwhole

end chunks

namespace Telegram

theorem mem_postsTo {chats : List ChatId} {text : List Char} {post : Post} :
    post ∈ postsTo chats text ↔
      post.chat ∈ chats ∧ ∃ chunk ∈ split textLimit text, post.text = String.ofList chunk := by
  obtain ⟨chat, text'⟩ := post
  simp only [postsTo, List.mem_flatMap, List.mem_map, Post.mk.injEq]
  constructor
  · rintro ⟨chat', hchat, chunk, hchunk, rfl, rfl⟩
    exact ⟨hchat, chunk, hchunk, rfl⟩
  · rintro ⟨hchat, chunk, hchunk, rfl⟩
    exact ⟨chat, hchat, chunk, hchunk, rfl, rfl⟩

theorem split_fragments_iff (title body : List Char) :
    (∀ chunk ∈ split textLimit (markedUp title body), Fragment chunk) ↔
      ∀ n ∈ cuts textLimit (markedUp title body), Boundary (units title body) n := by
  have hunits : ∀ u ∈ units title body, IsUnit u := fun _ => isUnit_of_mem_units
  rw [split, ← flatten_units]
  split
  · rename_i hle
    have hnone : cuts textLimit (units title body).flatten = [] := by
      rw [cuts, if_neg (by omega)]
    have hwhole := fragment_flatten hunits
    simp [hnone, hwhole]
  · exact chunksOf_fragments_iff hunits textLimit

theorem posts_ok {title body : String} {recipients : List Value} {ps : List Post}
    (h : posts (.text title) (.text body) recipients = .ok ps) :
    ∃ chats, resolveAll recipients = .ok chats ∧
      ps = postsTo chats (markedUp title.toList body.toList) := by
  simp only [posts, bind_eq_ok] at h
  obtain ⟨chats, hchats, _, htitle, _, hbody, h⟩ := h
  cases htitle
  cases hbody
  cases h
  exact ⟨chats, hchats, rfl⟩

theorem chats_ne_nil {recipients : List Value} {chats : List ChatId}
    (h : resolveAll recipients = .ok chats) (hne : recipients ≠ []) : chats ≠ [] := by
  obtain ⟨r, rest, rfl⟩ := List.exists_cons_of_ne_nil hne
  rw [resolveAll, List.mapM_cons, bind_eq_ok] at h
  obtain ⟨chat, -, h⟩ := h
  rw [bind_eq_ok] at h
  obtain ⟨others, -, h⟩ := h
  cases h
  exact List.cons_ne_nil chat others

/-- Each text that is posted is a fragment of markup exactly if no cut falls inside an entity, or
between the start and the end of the bold title. -/
theorem posts_are_fragments_iff (title body : String) (recipients : List Value) (ps : List Post)
    (hposts : posts (.text title) (.text body) recipients = .ok ps) (hne : recipients ≠ []) :
    (∀ post ∈ ps, Fragment post.text.toList) ↔
      ∀ n ∈ cuts textLimit (markedUp title.toList body.toList),
        Boundary (units title.toList body.toList) n := by
  obtain ⟨chats, hchats, rfl⟩ := posts_ok hposts
  have hchat : chats ≠ [] := chats_ne_nil hchats hne
  obtain ⟨chat, rest, rfl⟩ := List.exists_cons_of_ne_nil hchat
  rw [← split_fragments_iff]
  constructor
  · intro h chunk hchunk
    have hpost := h ⟨chat, String.ofList chunk⟩ (mem_postsTo.mpr ⟨by simp, chunk, hchunk, rfl⟩)
    rwa [String.toList_ofList] at hpost
  · intro h post hpost
    obtain ⟨-, chunk, hchunk, htext⟩ := mem_postsTo.mp hpost
    rw [htext, String.toList_ofList]
    exact h chunk hchunk

/-! ## A cut inside an entity -/

/-- So many letters, and an ampersand. -/
def longBody (n : Nat) : List Char :=
  List.replicate n 'a' ++ ['&']

theorem markedUp_longBody (n : Nat) :
    markedUp [] (longBody (n + 1)) = List.replicate (n + 1) 'a' ++ "&amp;".toList := by
  have htrim : trimWhile (· == '\n') (longBody (n + 1)) = longBody (n + 1) := by
    have hfirst : (longBody (n + 1)).dropWhile (· == '\n') = longBody (n + 1) := by
      rw [longBody, List.replicate_succ, List.cons_append, List.dropWhile_cons_of_neg (by decide)]
    rw [trimWhile, hfirst]
    exact List.rdropWhile_concat_neg _ _ _ (by decide)
  have hletters : escape (List.replicate (n + 1) 'a') = List.replicate (n + 1) 'a' := by
    rw [escape, List.flatMap_replicate]
    exact List.flatten_replicate_singleton
  rw [← flatten_units, units, htrim, longBody, List.map_append, List.flatten_append,
    List.flatten_append]
  exact congrArg (· ++ "&amp;".toList) hletters

theorem cutAt_of_not_mem {cs : List Char} (h : '\n' ∉ cs) (limit : Nat) : cutAt limit cs = limit := by
  have hnone : (cs.take limit).reverse.findIdx? (· == '\n') = none := by
    rw [List.findIdx?_eq_none_iff]
    intro c hc
    have hmem := List.mem_of_mem_take (List.mem_reverse.mp hc)
    have hne : c ≠ '\n' := by
      rintro rfl
      exact h hmem
    simpa using hne
  rw [cutAt, lastLineEnd, hnone]
  rfl

theorem chunksOf_ne_nil {limit : Nat} {cs : List Char} (h : cs ≠ []) : chunksOf limit cs ≠ [] := by
  rw [chunksOf]
  split
  · exact List.cons_ne_nil _ _
  · rw [List.isEmpty_eq_false_iff.mpr h]
    exact List.cons_ne_nil _ _

/-- A text without line ends that does not fit is sent in several chunks. -/
theorem two_le_length_split {limit : Nat} {cs : List Char} (hpos : 0 < limit) (hplain : '\n' ∉ cs)
    (hlong : limit < cs.length) : 2 ≤ (split limit cs).length := by
  have hrest : afterCut limit cs ≠ [] := by
    rw [afterCut, cutAt_of_not_mem hplain, ne_eq, List.dropWhile_eq_nil_iff]
    intro hall
    have hmem := List.getElem_mem (l := cs.drop limit) (n := 0) (by rw [List.length_drop]; omega)
    exact hplain (beq_iff_eq.mp (hall _ hmem) ▸ List.mem_of_mem_drop hmem)
  rw [split, if_neg (Nat.not_le.mpr hlong), chunksOf,
    if_pos ⟨hlong, afterCut_length_lt hpos hlong⟩, List.length_cons]
  have hlength : 0 < (chunksOf limit (afterCut limit cs)).length :=
    List.length_pos_of_ne_nil (chunksOf_ne_nil hrest)
  omega

theorem posts_longBody :
    posts (.text "") (.text (String.ofList (longBody 3899))) [.text "42"] =
      .ok (postsTo [.number 42] (markedUp [] (String.ofList (longBody 3899)).toList)) := by
  rfl

theorem posts_are_fragments_iff_longBody :
    ∃ ps, posts (.text "") (.text (String.ofList (longBody 3899))) [.text "42"] = .ok ps ∧
      ((∀ post ∈ ps, Fragment post.text.toList) ↔
        ∀ n ∈ cuts textLimit (markedUp "".toList (String.ofList (longBody 3899)).toList),
          Boundary (units "".toList (String.ofList (longBody 3899)).toList) n) :=
  ⟨_, posts_longBody, posts_are_fragments_iff "" _ _ _ posts_longBody (by simp)⟩

/-- The first chunk ends with the ampersand of an entity. -/
theorem cut_inside_entity :
    ∃ ps, posts (.text "") (.text (String.ofList (longBody 3899))) [.text "42"] = .ok ps ∧
      ∃ post ∈ ps, ¬ Fragment post.text.toList := by
  refine ⟨_, posts_longBody, ?_⟩
  rw [String.toList_ofList, markedUp_longBody 3898]
  have hlength : (List.replicate 3899 'a' ++ "&amp;".toList).length = 3904 := by
    rw [List.length_append, List.length_replicate]
    rfl
  have hplain : '\n' ∉ List.replicate 3899 'a' ++ "&amp;".toList := by
    rw [List.mem_append, List.mem_replicate]
    decide
  have hlong : textLimit < (List.replicate 3899 'a' ++ "&amp;".toList).length := by
    rw [hlength]
    decide
  have htake : (List.replicate 3899 'a' ++ "&amp;".toList).take 3900 =
      List.replicate 3899 'a' ++ ['&'] := by
    have hwhole : (List.replicate 3899 'a').length ≤ 3900 := by
      rw [List.length_replicate]
      decide
    rw [List.take_append, List.take_of_length_le hwhole, List.length_replicate]
    rfl
  have hunits : ∀ u ∈ List.replicate 3899 ['a'] ++ ["&amp;".toList], IsUnit u := by
    intro u hu
    rcases List.mem_append.mp hu with hu | hu
    · rw [(List.mem_replicate.mp hu).2]
      exact .ordinary rfl
    · rw [List.mem_singleton.mp hu]
      exact .entity (by decide)
  have hchunk := not_fragment_trimmed hunits rfl (m := 1) (by decide) (by decide)
  rw [List.flatten_replicate_singleton] at hchunk
  refine ⟨⟨.number 42, String.ofList (dropEndWhile isBlank (List.replicate 3899 'a' ++ ['&']))⟩, ?_, ?_⟩
  · refine mem_postsTo.mpr ⟨by simp, _, ?_, rfl⟩
    rw [split, if_neg (Nat.not_le.mpr hlong), chunksOf,
      if_pos ⟨hlong, afterCut_length_lt (by decide) hlong⟩, cutAt_of_not_mem hplain, textLimit, htake]
    exact List.mem_cons_self
  · rw [String.toList_ofList]
    exact hchunk

end Telegram

end Courier.Message
