import Courier.Text.Blank
import Mathlib.Data.List.Basic

/-!
# Words between blanks

A text without blanks is a word. Words that are written one after another, with blanks between them, are
read again.
-/

namespace Courier.Text

def IsSolid (cs : List Char) : Prop :=
  ∀ c ∈ cs, isBlank c = false

theorem IsSolid.append {cs ds : List Char} (h : IsSolid cs) (h' : IsSolid ds) : IsSolid (cs ++ ds) :=
  List.forall_mem_append.mpr ⟨h, h'⟩

theorem dropWhile_of_head {p : Char → Bool} {cs : List Char} (h : ∀ c ∈ cs.head?, p c = false) :
    cs.dropWhile p = cs := by
  cases cs with
  | nil => rfl
  | cons c cs => exact List.dropWhile_cons_of_neg (by simp [h c rfl])

/-- A run ends where the next character is of another kind. -/
theorem dropWhile_run {p : Char → Bool} {run rest : List Char} (hrun : ∀ c ∈ run, p c = true)
    (hrest : ∀ c ∈ rest.head?, p c = false) : (run ++ rest).dropWhile p = rest := by
  rw [List.dropWhile_append_of_pos hrun, dropWhile_of_head hrest]

/-- Nothing is removed but what is at the ends. -/
theorem trimWhile_of_ends {p : Char → Bool} {cs : List Char} (hhead : ∀ c ∈ cs.head?, p c = false)
    (hlast : ∀ c ∈ cs.getLast?, p c = false) : trimWhile p cs = cs := by
  have hback : cs.reverse.dropWhile p = cs.reverse := by
    apply dropWhile_of_head
    rwa [List.head?_reverse]
  rw [trimWhile, dropWhile_of_head hhead, dropEndWhile, hback, List.reverse_reverse]

/-- What is added at the end to be removed is removed, and nothing else. -/
theorem trimWhile_append {p : Char → Bool} {cs blanks : List Char} (hhead : ∀ c ∈ cs.head?, p c = false)
    (hlast : ∀ c ∈ cs.getLast?, p c = false) (hblanks : ∀ c ∈ blanks, p c = true) :
    trimWhile p (cs ++ blanks) = cs := by
  cases cs with
  | nil =>
    have hdrop : (blanks ++ []).dropWhile p = [] := dropWhile_run hblanks (by simp)
    rw [List.append_nil] at hdrop
    rw [List.nil_append, trimWhile, hdrop]
    rfl
  | cons c cs =>
    have hfront : ∀ d ∈ (c :: cs ++ blanks).head?, p d = false := hhead
    have hback : ∀ d ∈ (c :: cs).reverse.head?, p d = false := by rwa [List.head?_reverse]
    rw [trimWhile, dropWhile_of_head hfront, dropEndWhile, List.reverse_append,
      dropWhile_run (fun d hd => hblanks d (List.mem_reverse.mp hd)) hback, List.reverse_reverse]

theorem head?_dropWhile {p : Char → Bool} {cs : List Char} {c : Char}
    (h : c ∈ (cs.dropWhile p).head?) : p c = false := by
  have hnot := List.head?_dropWhile_not p cs
  rw [Option.mem_def.mp h] at hnot
  simpa using hnot

/-- What is left after blanks are removed does not begin with one. -/
theorem head?_trimWhile {p : Char → Bool} {cs : List Char} {c : Char}
    (h : c ∈ (trimWhile p cs).head?) : p c = false := by
  rw [trimWhile, dropEndWhile, List.head?_reverse] at h
  -- The part in front of what is left is the end of the list, so its first character stays first.
  have hfront : c ∈ ((cs.dropWhile p).reverse.takeWhile p ++
      (cs.dropWhile p).reverse.dropWhile p).getLast? :=
    List.mem_getLast?_append_of_mem_getLast? h
  rw [List.takeWhile_append_dropWhile, List.getLast?_reverse] at hfront
  exact head?_dropWhile hfront

theorem getLast?_trimWhile {p : Char → Bool} {cs : List Char} {c : Char}
    (h : c ∈ (trimWhile p cs).getLast?) : p c = false := by
  rw [trimWhile, dropEndWhile, List.getLast?_reverse] at h
  exact head?_dropWhile h

theorem strip_of_isSolid {s : String} (h : IsSolid s.toList) : strip s = s := by
  rw [strip, trimWhile_of_ends, String.ofList_toList]
  · exact fun c hc => h c (List.mem_of_mem_head? hc)
  · exact fun c hc => h c (List.mem_of_mem_getLast? hc)

theorem wordsFrom_append {word : List Char} (h : IsSolid word) (current rest : List Char) :
    wordsFrom current (word ++ rest) = wordsFrom (word.reverse ++ current) rest := by
  induction word generalizing current with
  | nil => rfl
  | cons c word ih =>
    rw [List.cons_append, wordsFrom, if_neg (by simp [h c List.mem_cons_self]),
      ih (fun d hd => h d (List.mem_cons_of_mem c hd)), List.reverse_cons, List.append_assoc]
    rfl

theorem words_blank {c : Char} (h : isBlank c = true) (cs : List Char) : words (c :: cs) = words cs := by
  rw [words, wordsFrom, if_pos h]
  rfl

theorem words_blanks {blanks : List Char} (h : ∀ c ∈ blanks, isBlank c = true) (cs : List Char) :
    words (blanks ++ cs) = words cs := by
  induction blanks with
  | nil => rfl
  | cons c blanks ih =>
    rw [List.cons_append, words_blank (h c List.mem_cons_self),
      ih fun d hd => h d (List.mem_cons_of_mem c hd)]

/-- A word ends at the next blank, or at the end of the text. -/
theorem words_append {word rest : List Char} (h : IsSolid word) (hne : word ≠ [])
    (hrest : ∀ c ∈ rest.head?, isBlank c = true) : words (word ++ rest) = word :: words rest := by
  have hcurrent : (word.reverse ++ []).isEmpty = false := by simpa using hne
  rw [words, wordsFrom_append h]
  cases rest with
  | nil =>
    rw [wordsFrom, hcurrent, List.append_nil, List.reverse_reverse]
    rfl
  | cons c rest =>
    have hc := hrest c rfl
    rw [wordsFrom, if_pos hc, hcurrent, List.append_nil, List.reverse_reverse, words_blank hc]
    rfl

end Courier.Text
