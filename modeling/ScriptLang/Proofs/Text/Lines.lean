import Mathlib.Data.List.DropRight
import ScriptLang.Text.Lines

/-!
# Two ways to count lines

The places of tokens count line feeds alone (`feedLines`), and diagnostics cut a text at every line
boundary. The two agree on a line if no other boundary stands in it and in the lines before it
(`lines_getElem?`). Only a carriage return may stand before the line feed, since the two together
are one boundary.
-/

namespace ScriptLang.Text

/-- The lines of a text by its line feeds alone. What follows the last of them is a line as well. -/
def feedLines (text : List Char) : List (List Char) := text.splitOn '\n'

/-- A line without the carriage return at its end. -/
def withoutReturn (line : List Char) : List Char :=
  if line.getLast? = some '\r' then line.dropLast else line

/-- No line boundary stands in a line, unless it is a carriage return at its end. -/
def IsWhole (line : List Char) : Prop := ∀ c ∈ withoutReturn line, isLineEnd c = false

/-- The lines of a text up to the one with a number are whole. -/
def WholeUpTo (text : List Char) (n : Nat) : Prop := ∀ line ∈ (feedLines text).take n, IsWhole line

/-- A line before a line feed is the first. -/
lemma feedLines_cons {line : List Char} (h : '\n' ∉ line) (rest : List Char) :
    feedLines (line ++ '\n' :: rest) = line :: feedLines rest :=
  List.splitOn_append_cons_self_of_not_mem h rest

/-- A text without line feeds is one line. -/
lemma feedLines_singleton {line : List Char} (h : '\n' ∉ line) : feedLines line = [line] :=
  List.splitOn_eq_singleton h

/-- A line feed parts the lines before it from those behind it. -/
lemma feedLines_append (text rest : List Char) :
    feedLines (text ++ '\n' :: rest) = feedLines text ++ feedLines rest :=
  List.splitOn_append_cons_self text rest

/-- There is one line more than there are line feeds. -/
lemma length_feedLines (text : List Char) : (feedLines text).length = text.count '\n' + 1 := by
  unfold feedLines
  induction text with
  | nil => rfl
  | cons c text ih =>
    rw [List.splitOn_cons_eq_if_modifyHead, List.count_cons]
    split
    · rw [List.length_cons, ih]
    · rw [List.length_modifyHead, ih, Nat.add_zero]

/-- The first line goes up to the first line feed. -/
lemma feedLines_head (text : List Char) :
    (feedLines text)[0]? = some (text.takeWhile (· ≠ '\n')) := by
  have plain {line : List Char} (h : '\n' ∉ line) : ∀ c ∈ line, decide (c ≠ '\n') = true := by
    intro c mem
    exact decide_eq_true fun e => h (e ▸ mem)
  by_cases feed : '\n' ∈ text
  · obtain ⟨line, rest, rfl, h⟩ := List.eq_append_cons_of_mem feed
    rw [feedLines_cons h, List.takeWhile_append_of_pos (plain h),
      List.takeWhile_cons_of_neg (by simp), List.append_nil]
    rfl
  · rw [feedLines_singleton feed, List.takeWhile_eq_self_iff.2 (plain feed)]
    rfl

/-- The text around a place, up to the line feeds before and after it, is the line with as many line
feeds before it. -/
lemma feedLines_getElem? (before rest : List Char) :
    (feedLines (before ++ rest))[before.count '\n']? =
      some (before.rtakeWhile (· ≠ '\n') ++ rest.takeWhile (· ≠ '\n')) := by
  induction before using List.reverseRecOn generalizing rest with
  | nil => exact feedLines_head rest
  | append_singleton before c ih =>
    rw [List.append_assoc, List.singleton_append, List.count_append, List.rtakeWhile_concat]
    by_cases feed : c = '\n'
    · subst feed
      rw [feedLines_append, List.count_singleton_self, ← length_feedLines,
        List.getElem?_append_right (Nat.le_refl _), Nat.sub_self, feedLines_head]
      rfl
    · rw [List.count_singleton, if_neg (by simpa using feed), Nat.add_zero, ih,
        List.takeWhile_cons_of_pos (by simpa using feed), if_pos (by simpa using feed)]
      simp

/-- A line feed ends a line. -/
lemma isLineEnd_feed : isLineEnd '\n' = true := by decide

/-- What is no boundary belongs to the line that is read. -/
lemma linesFrom_append {text : List Char} (h : ∀ c ∈ text, isLineEnd c = false)
    (rest line : List Char) :
    linesFrom (text ++ rest) line = linesFrom rest (text.reverse ++ line) := by
  induction text generalizing line with
  | nil => rfl
  | cons c text ih =>
    obtain ⟨plain, h⟩ := List.forall_mem_cons.1 h
    rw [List.cons_append, linesFrom, if_neg (by rw [plain]; exact Bool.false_ne_true), ih h]
    · simp
    · rintro _ rfl
      cases plain

/-- A line has a carriage return at its end or is as it is without. -/
lemma eq_withoutReturn (line : List Char) :
    line = withoutReturn line ∨ line = withoutReturn line ++ ['\r'] := by
  unfold withoutReturn
  split
  case isTrue last => exact .inr (List.dropLast_append_getLast? _ last).symm
  case isFalse => exact .inl rfl

/-- A carriage return at the end of a longer text is none at the end of its start. -/
lemma withoutReturn_append {text : List Char} (h : ∀ c ∈ text.getLast?, c ≠ '\r')
    (rest : List Char) : withoutReturn (text ++ rest) = text ++ withoutReturn rest := by
  unfold withoutReturn
  cases rest with
  | nil =>
    have last : text.getLast? ≠ some '\r' := fun e => h _ e rfl
    simp [last]
  | cons c rest =>
    rw [List.getLast?_append_cons, List.dropLast_append_cons]
    split <;> rfl

/-- A whole line is read up to its end. -/
lemma lines_cons {line : List Char} (h : IsWhole line) (rest : List Char) :
    lines (line ++ '\n' :: rest) = withoutReturn line :: lines rest := by
  have e := eq_withoutReturn line
  unfold IsWhole at h
  unfold lines
  generalize withoutReturn line = text at e h ⊢
  obtain rfl | rfl := e
  · rw [linesFrom_append h, linesFrom, if_pos isLineEnd_feed, List.append_nil, List.reverse_reverse]
    exact fun _ e => nomatch e
  · rw [List.append_assoc, linesFrom_append h, List.append_nil]
    exact congrArg (· :: _) (List.reverse_reverse text)

/-- A whole line that ends a text is read unless it is empty. -/
lemma lines_singleton {line : List Char} (h : IsWhole line) (ne : line ≠ []) :
    lines line = [withoutReturn line] := by
  have e := eq_withoutReturn line
  unfold IsWhole at h
  unfold lines
  generalize withoutReturn line = text at e h ⊢
  obtain rfl | rfl := e
  · have read := linesFrom_append h [] []
    rw [List.append_nil, List.append_nil] at read
    rw [read, linesFrom, List.reverse_reverse]
    exact List.reverse_ne_nil_iff.2 ne
  · rw [linesFrom_append h, List.append_nil]
    exact congrArg (· :: _) (List.reverse_reverse text)

/-- The lines of a text for the diagnostics are those by its line feeds for as long as these are
whole. An empty line behind the last line feed is none for them. -/
theorem lines_getElem? {text line : List Char} {n : Nat} (whole : WholeUpTo text (n + 1))
    (found : (feedLines text)[n]? = some line) (ne : line ≠ []) :
    (lines text)[n]? = some (withoutReturn line) := by
  unfold WholeUpTo at whole
  induction n generalizing text with
  | zero =>
    by_cases feed : '\n' ∈ text
    · obtain ⟨first, rest, rfl, h⟩ := List.eq_append_cons_of_mem feed
      rw [feedLines_cons h] at whole found
      cases found
      rw [lines_cons (whole _ List.mem_cons_self)]
      rfl
    · rw [feedLines_singleton feed] at whole found
      cases found
      rw [lines_singleton (whole _ List.mem_cons_self) ne]
      rfl
  | succ n ih =>
    by_cases feed : '\n' ∈ text
    · obtain ⟨first, rest, rfl, h⟩ := List.eq_append_cons_of_mem feed
      rw [feedLines_cons h] at whole found
      rw [lines_cons (whole _ List.mem_cons_self)]
      exact ih (fun line mem => whole line (List.mem_cons_of_mem _ mem)) found
    · rw [feedLines_singleton feed] at found
      cases found

end ScriptLang.Text
