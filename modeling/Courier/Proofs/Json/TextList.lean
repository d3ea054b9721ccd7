import Courier.Json.Writer
import Courier.Outbox.Row

/-!
# Lists of texts as JSON

A written list of texts reads back as the same list, whatever characters the texts have. So the
lists of recipients that the rows of the store keep as JSON texts are exactly the lists that were put
there.
-/

namespace Courier.Json

/-! ## Escapes -/

theorem hexValue?_hexDigit : ∀ d < 16, hexValue? (Text.hexDigit d) = some d := by
  decide

theorem hex_four (n : Nat) :
    Text.hex 4 n =
      [Text.hexDigit (n / 4096 % 16), Text.hexDigit (n / 256 % 16), Text.hexDigit (n / 16 % 16),
        Text.hexDigit (n % 16)] := by
  simp [Text.hex, Nat.div_div_eq_div_mul]

theorem hexNumber?_hexDigits {n : Nat} (h : n < 65536) :
    hexNumber? (Text.hexDigit (n / 4096 % 16)) (Text.hexDigit (n / 256 % 16))
      (Text.hexDigit (n / 16 % 16)) (Text.hexDigit (n % 16)) = some n := by
  have digit (k : Nat) : hexValue? (Text.hexDigit (k % 16)) = some (k % 16) :=
    hexValue?_hexDigit _ (Nat.mod_lt k (by decide))
  have hsum : ((n / 4096 % 16) * 16 + n / 256 % 16) * 256 + (n / 16 % 16) * 16 + n % 16 = n := by
    omega
  simp [hexNumber?, digit, hsum]

/-- Controls are written by their code. -/
theorem readEscape_control (start : Nat) {c : Char} (hc : c.toNat < 0x20) (e : Char)
    (rest : List Char) :
    readEscape start ('u' :: Text.hex 4 c.toNat ++ e :: rest) = .ok (c, 5) := by
  have hnumber := hexNumber?_hexDigits (n := c.toNat) (by omega)
  have hhigh : isHighSurrogate c.toNat = false := by
    simp [isHighSurrogate]
    omega
  have hcode : charOfCode c.toNat = c := by
    rw [charOfCode, if_neg (by omega), Char.ofNat_toNat]
  rw [hex_four]
  simp [readEscape, hnumber, hhigh, hcode]

/-- An escaped character reads back as itself if anything follows it. -/
theorem readTextFrom_escapeChar (start : Nat) (read : List Char) (c e : Char) (rest : List Char) :
    readTextFrom start 0 read (escapeChar c ++ e :: rest) =
      readTextFrom start 0 (c :: read) (e :: rest) := by
  unfold escapeChar
  split
  · subst c; simp [readTextFrom, readEscape, unescape?]
  split
  · subst c; simp [readTextFrom, readEscape, unescape?]
  split
  · subst c; simp [readTextFrom, readEscape, unescape?]
  split
  · subst c; simp [readTextFrom, readEscape, unescape?]
  split
  · subst c; simp [readTextFrom, readEscape, unescape?]
  split
  · subst c; simp [readTextFrom, readEscape, unescape?]
  split
  · subst c; simp [readTextFrom, readEscape, unescape?]
  split
  · have hescape := readEscape_control start ‹_› e rest
    rw [hex_four] at hescape ⊢
    simp only [List.cons_append, List.nil_append] at hescape ⊢
    simp [readTextFrom, hescape]
  · rename_i hquote hslash _ _ _ _ _ hplain
    rw [List.singleton_append, readTextFrom, if_neg hquote, if_neg hslash, if_neg (by omega)]

theorem readTextFrom_escaped (start : Nat) (read cs rest : List Char) :
    readTextFrom start 0 read (cs.flatMap escapeChar ++ '"' :: rest) =
      .ok (read.reverse ++ cs, rest) := by
  induction cs generalizing read with
  | nil => simp [readTextFrom]
  | cons c cs ih =>
    obtain ⟨e, tail, he⟩ : ∃ e tail, cs.flatMap escapeChar ++ '"' :: rest = e :: tail := by
      cases h : cs.flatMap escapeChar with
      | nil => exact ⟨'"', rest, rfl⟩
      | cons e tail => exact ⟨e, tail ++ '"' :: rest, rfl⟩
    rw [List.flatMap_cons, List.append_assoc, he, readTextFrom_escapeChar, ← he, ih]
    simp

/-! ## Lists -/

theorem readValue_text (depth : Nat) (s : String) (rest : List Char) :
    readValue (depth + 1) (writeChars s.toList ++ rest) = .ok (.text s, rest) := by
  have htext := readTextFrom_escaped
    ((s.toList.flatMap escapeChar ++ '"' :: rest).length + 1) [] s.toList rest
  simp only [List.reverse_nil, List.nil_append] at htext
  simp only [writeChars, List.cons_append, List.append_assoc, List.nil_append, readValue]
  rw [htext]
  simp [bind, Except.bind, pure, Except.pure]

def joinTexts (ss : List String) : List Char :=
  [',', ' '].intercalate (ss.map fun s => writeChars s.toList)

theorem joinTexts_cons_cons (s t : String) (ss : List String) :
    joinTexts (s :: t :: ss) = writeChars s.toList ++ ',' :: ' ' :: joinTexts (t :: ss) := by
  simp [joinTexts]

theorem joinTexts_head (s : String) (ss : List String) :
    ∃ tail, joinTexts (s :: ss) = '"' :: tail := by
  cases ss with
  | nil => exact ⟨_, by simp [joinTexts, writeChars]; rfl⟩
  | cons t ss => exact ⟨_, by rw [joinTexts_cons_cons]; simp [writeChars]; rfl⟩

theorem length_le_joinTexts (ss : List String) : ss.length ≤ (joinTexts ss).length := by
  induction ss with
  | nil => simp
  | cons s ss ih =>
    cases ss with
    | nil => simp [joinTexts, writeChars]
    | cons t ss =>
      rw [joinTexts_cons_cons]
      simp only [List.length_cons, List.length_append] at ih ⊢
      omega

theorem readItems_texts (depth : Nat) (read : List Value) (s : String) (ss : List String)
    (hdepth : ss.length + 1 < depth) :
    readItems depth read (joinTexts (s :: ss) ++ [']']) =
      .ok (.list (read.reverse ++ (s :: ss).map Value.text), []) := by
  induction ss generalizing depth read s with
  | nil =>
    obtain ⟨depth, rfl⟩ : ∃ k, depth = k + 2 := ⟨depth - 2, by simp at hdepth; omega⟩
    have hitem := readValue_text depth s [']']
    simp only [joinTexts, List.map_cons, List.map_nil, List.intercalate_singleton]
    simp [readItems, hitem, bind, Except.bind, pure, Except.pure, skip, isSpace]
  | cons t ss ih =>
    obtain ⟨depth, rfl⟩ : ∃ k, depth = k + 2 := ⟨depth - 2, by simp at hdepth; omega⟩
    have hitem := readValue_text depth s (',' :: ' ' :: (joinTexts (t :: ss) ++ [']']))
    have hrest := ih (depth + 1) (.text s :: read) t (by simp at hdepth ⊢; omega)
    obtain ⟨tail, htail⟩ := joinTexts_head t ss
    have hskip : skip (' ' :: (joinTexts (t :: ss) ++ [']'])) = joinTexts (t :: ss) ++ [']'] := by
      rw [htail]
      simp [skip, isSpace]
    rw [joinTexts_cons_cons, List.append_assoc, List.cons_append, List.cons_append, readItems,
      hitem]
    simp only [bind, Except.bind]
    rw [show skip (',' :: ' ' :: (joinTexts (t :: ss) ++ [']'])) =
      ',' :: ' ' :: (joinTexts (t :: ss) ++ [']']) from rfl]
    simp [hskip, hrest]

theorem toList_write_texts (ss : List String) :
    (write (.list (ss.map Value.text))).toList = '[' :: joinTexts ss ++ [']'] := by
  have hitems : (writeItems (ss.map Value.text)).map String.toList =
      ss.map fun s => writeChars s.toList := by
    induction ss with
    | nil => rfl
    | cons s ss ih => simp [writeItems, write, writeText, ih]
  simp [write, joinTexts, hitems]

theorem readWhole_texts (ss : List String) :
    readWhole ('[' :: (joinTexts ss ++ [']'])) = .ok (.list (ss.map Value.text)) := by
  cases ss with
  | nil => rfl
  | cons s ss =>
    obtain ⟨tail, htail⟩ := joinTexts_head s ss
    have hdepth := length_le_joinTexts (s :: ss)
    have hitems := readItems_texts (2 * (tail.length + 3) + 1) [] s ss
      (by simp only [htail, List.length_cons] at hdepth ⊢; omega)
    rw [htail] at hitems ⊢
    have hvalue : readValue (2 * ('[' :: ('"' :: tail ++ [']'])).length + 2)
        ('[' :: ('"' :: tail ++ [']'])) = .ok (.list ((s :: ss).map Value.text), []) := by
      rw [show 2 * ('[' :: ('"' :: tail ++ [']'])).length + 2 = 2 * (tail.length + 3) + 1 + 1 by
        simp]
      simpa [readValue, skip, isSpace] using hitems
    rw [readWhole, show skip ('[' :: ('"' :: tail ++ [']'])) = '[' :: ('"' :: tail ++ [']']) from rfl,
      hvalue]
    rfl

theorem read_write_texts (ss : List String) :
    read (write (.list (ss.map Value.text))) = .ok (.list (ss.map Value.text)) := by
  rw [read, toList_write_texts, List.cons_append, readChars, if_neg (by simp), readWhole_texts]

theorem write_list_ne_empty (items : List Value) : (write (.list items)).isEmpty = false := by
  rw [← Bool.not_eq_true, String.isEmpty_iff]
  intro h
  have hlength := congrArg (fun s => s.toList.length) h
  simp [write] at hlength

end Courier.Json

namespace Courier.Outbox

/-- What a row keeps of a list of texts is the list. -/
theorem loadList_write_texts (ss : List String) :
    loadList (Json.write (.list (ss.map Value.text))) = .ok ss := by
  have hdisplay : (ss.map Value.text).map Value.display = ss := by
    rw [List.map_map]
    exact List.map_id'' (fun _ => rfl) ss
  rw [loadList, Json.write_list_ne_empty, if_neg Bool.false_ne_true, Json.read_write_texts]
  exact congrArg Except.ok hdisplay

end Courier.Outbox
