/-!
# Terminal sequences

Texts are coloured by sequences that the terminal takes as commands: an escape character, an opening
bracket, some parameters, some intermediate characters and a final character. `strip` removes the
sequences of a family in one pass from left to right. The colours are the family with digits and
semicolons before a final `m`.
-/

namespace ScriptLang.Text

/-- A family of terminal sequences: the characters of its parameters, its intermediate characters
and its final characters. -/
structure Sequences where
  isParameter : Char → Bool
  isIntermediate : Char → Bool
  isFinal : Char → Bool

/-- The sequences that change colours. -/
def colours : Sequences where
  isParameter c := ('0' ≤ c && c ≤ '9') || c = ';'
  isIntermediate _ := false
  isFinal c := c = 'm'

/-- All sequences of a terminal: the characters from the space to the tilde, in three ranges by
their places in a sequence. -/
def controls : Sequences where
  isParameter c := '0' ≤ c && c ≤ '?'
  isIntermediate c := ' ' ≤ c && c ≤ '/'
  isFinal c := '@' ≤ c && c ≤ '~'

/-- What follows the sequence that starts a text, if one does. -/
def Sequences.after? (s : Sequences) : List Char → Option (List Char)
  | '\x1b' :: '[' :: rest =>
    match (rest.dropWhile s.isParameter).dropWhile s.isIntermediate with
    | final :: rest => if s.isFinal final then some rest else none
    | [] => none
  | _ => none

/-- Dropping from the start makes no text longer. -/
theorem length_dropWhile_le (p : Char → Bool) (cs : List Char) :
    (cs.dropWhile p).length ≤ cs.length :=
  (List.dropWhile_sublist p).length_le

/-- A sequence is not empty. -/
theorem Sequences.length_after?_lt {s : Sequences} {cs rest : List Char}
    (h : s.after? cs = some rest) : rest.length < cs.length := by
  unfold after? at h
  split at h
  · rename_i tail
    have parameters := length_dropWhile_le s.isParameter tail
    have intermediates := length_dropWhile_le s.isIntermediate (tail.dropWhile s.isParameter)
    split at h
    · rename_i drop
      rw [drop] at intermediates
      split at h
      · cases h
        simp at intermediates ⊢
        omega
      · cases h
    · cases h
  · cases h

/-- A text without the sequences of a family. -/
def strip (s : Sequences) (cs : List Char) : List Char :=
  match _h : s.after? cs with
  | some rest => strip s rest
  | none =>
    match cs with
    | [] => []
    | c :: rest => c :: strip s rest
termination_by cs.length
decreasing_by
  · exact Sequences.length_after?_lt _h
  · simp

/-- A text without its colours. -/
def stripColours (text : String) : String := String.ofList (strip colours text.toList)

end ScriptLang.Text
