import Mathlib.Data.List.TakeWhile
import ScriptLang.Proofs.Token.Terminal

/-!
# Longest matches

The piece at the start of a text is the longest match of any terminal there. Whatever terminal has a
match, `piece?` takes a piece that goes on at least as far (`Terminal.Reached.of_mem`), and it takes
nothing but matches (`matched_of_piece?`). A text is matched by one terminal only, keywords apart,
so no other piece is the longest match (`piece?_eq_some_iff`).
-/

namespace ScriptLang.Token

open scoped Computability

/-- A piece is the longest match of any terminal, at the start of a text that goes on with `rest`. A
name is no keyword: it is only matched by the terminal of names. -/
structure Piece.IsLongestMatch (piece : Piece) (rest : List Char) : Prop where
  matched : ∃ terminal : Terminal, terminal.kind? = piece.kind ∧ piece.text ∈ terminal.language ∧
    (terminal = .token .name → ∀ other : Terminal, piece.text ∈ other.language → other = terminal)
  longest : ∀ (terminal : Terminal) (text : List Char), text ∈ terminal.language →
    text <+: piece.text ++ rest → text.length ≤ piece.text.length

section
variable {c : Char} {cs : List Char}

/-- The first character tells what a piece is, unless it is a minus sign. -/
lemma piece?_cons (h : c ≠ '-') : piece? (c :: cs) =
    if isNameStart c then some (wordPiece (c :: cs))
    else if isDigit c then some (numberPiece (c :: cs))
    else if isSeparator c then some (spanPiece none isSeparator (c :: cs))
    else if c = '\x22' then
      (stringTail? cs).map fun (text, rest) => (⟨some .string, c :: text⟩, rest)
    else
      (symbol? (c :: cs)).map fun (kind, length) =>
        (⟨some kind, (c :: cs).take length⟩, (c :: cs).drop length) := by
  unfold piece?
  split
  case h_1 e => cases e
  case h_2 e =>
    cases e
    exact absurd rfl h
  case h_3 e =>
    cases e
    rfl

/-- A piece that starts as a name is a word. -/
lemma piece?_word (h : isNameStart c = true) : piece? (c :: cs) = some (wordPiece (c :: cs)) := by
  rw [piece?_cons (by rintro rfl; cases h), if_pos h]

/-- A piece that starts with a digit is a number. -/
lemma piece?_number (h : isDigit c = true) : piece? (c :: cs) = some (numberPiece (c :: cs)) := by
  rw [piece?_cons (by rintro rfl; cases h), isNameStart_of_isDigit h, if_pos h]
  rfl

/-- A piece that starts with what separates tokens is a span of it. -/
lemma piece?_separator (h : isSeparator c = true) :
    piece? (c :: cs) = some (spanPiece none isSeparator (c :: cs)) := by
  obtain ⟨name, digit⟩ := not_start_of_isSeparator h
  rw [piece?_cons (by rintro rfl; cases h), name, digit, if_pos h]
  rfl

/-- A piece that starts with a quote is a string, if it ends. -/
lemma piece?_string : piece? ('\x22' :: cs) =
    (stringTail? cs).map fun (text, rest) => (⟨some .string, '\x22' :: text⟩, rest) :=
  piece?_cons (by decide)

end

/-- Characters of a class are among those that are taken. -/
lemma prefix_takeWhile {p : Char → Bool} {text : List Char} (h : ∀ c ∈ text, p c = true)
    (rest : List Char) : text <+: (text ++ rest).takeWhile p := by
  rw [List.takeWhile_append_of_pos h]
  exact List.prefix_append _ _

/-- The digits at the start of a text are part of the number there. -/
lemma takeWhile_prefix_numberPiece (cs : List Char) :
    cs.takeWhile isDigit <+: (numberPiece cs).1.text := by
  unfold numberPiece
  split
  · split
    · exact List.prefix_append _ _
    · exact List.prefix_refl _
  · exact List.prefix_refl _

/-- A point belongs to a number if a digit follows. -/
lemma numberPiece_point {whole : List Char} (h : ∀ c ∈ whole, isDigit c = true) {d : Char}
    (hd : isDigit d = true) (cs : List Char) : numberPiece (whole ++ '.' :: d :: cs) =
      (⟨some .number, whole ++ '.' :: d :: cs.takeWhile isDigit⟩, cs.dropWhile isDigit) := by
  have digits : (whole ++ '.' :: d :: cs).takeWhile isDigit = whole := by
    rw [List.takeWhile_append_of_pos h, List.takeWhile_cons_of_neg (by decide), List.append_nil]
  have rest : (whole ++ '.' :: d :: cs).dropWhile isDigit = '.' :: d :: cs := by
    rw [List.dropWhile_append_of_pos h, List.dropWhile_cons_of_neg (by decide)]
  unfold numberPiece
  rw [digits, rest]
  exact if_pos hd

/-- The piece of a number is a number. -/
lemma kind_numberPiece (cs : List Char) : (numberPiece cs).1.kind = some .number := by
  unfold numberPiece
  split
  · split <;> rfl
  · rfl

/-- A plain character goes on with a string. -/
lemma stringTail?_cons {c : Char} (hq : c ≠ '\x22') (hs : c ≠ '\\') (cs : List Char) :
    stringTail? (c :: cs) = (stringTail? cs).map fun (text, rest) => (c :: text, rest) := by
  rw [stringTail?]
  · rw [if_neg hs, if_neg hq]
  · rintro d rest rfl
    exact absurd rfl hs

/-- What stands between the quotes of a string is taken as it is. -/
lemma stringTail?_of_mem {parts : List Char} (h : parts ∈ stringPart∗) (rest : List Char) :
    stringTail? (parts ++ '\x22' :: rest) = some (parts ++ ['\x22'], rest) := by
  obtain ⟨words, rfl, each⟩ := Language.mem_kstar.1 h
  clear h
  induction words with
  | nil => rfl
  | cons word words ih =>
    obtain ⟨first, each⟩ := List.forall_mem_cons.1 each
    have ih := ih each
    obtain ⟨c, hc, rfl⟩ | escaped := first
    · have plain : c ≠ '\x22' ∧ c ≠ '\\' := by simpa using hc
      simp [stringTail?_cons plain.1 plain.2, ih]
    · obtain ⟨_, rfl, _, ⟨d, hd, rfl⟩, rfl⟩ := Language.mem_mul.1 escaped
      have plain : d ≠ '\n' := by simpa using hd
      simp [stringTail?, plain, ih]

/-- A string is the piece at the start of a text, whatever follows. -/
lemma piece?_of_string {text : List Char} (h : text ∈ (Terminal.token .string).language)
    (after : List Char) : piece? (text ++ after) = some (⟨some .string, text⟩, after) := by
  obtain ⟨parts, mem, rfl⟩ := Terminal.mem_string.1 h
  rw [List.cons_append, piece?_string, List.append_assoc, List.singleton_append,
    stringTail?_of_mem mem]
  rfl

namespace Terminal

/-- The kind of a piece that a terminal matches, if it is no longer than the match. -/
def kindOf (terminal : Terminal) (text : List Char) : Option Kind :=
  if terminal = token .name then some (wordKind (String.ofList text)) else terminal.kind?

/-- The piece at the start of a text goes on at least as far as a match of a terminal, and belongs
to the terminal if it goes on no further. -/
def Reached (terminal : Terminal) (text rest : List Char) : Prop :=
  ∃ piece tail, piece? (text ++ rest) = some (piece, tail) ∧ text <+: piece.text ∧
    (piece.text = text → piece.kind = terminal.kindOf text)

namespace Reached
variable {text rest : List Char}

/-- A match as a word goes no further than the piece. -/
lemma word (h : text ∈ (token .name).language) (rest : List Char) :
    ∃ piece tail, piece? (text ++ rest) = some (piece, tail) ∧ text <+: piece.text ∧
      (piece.text = text → piece.kind = some (wordKind (String.ofList text))) := by
  obtain ⟨c, cs, hc, each, rfl⟩ := mem_name.1 h
  have parts : ∀ d ∈ c :: cs, isNamePart d = true :=
    List.forall_mem_cons.2 ⟨isNamePart_of_isNameStart hc, each⟩
  refine ⟨_, _, piece?_word hc, prefix_takeWhile parts rest, fun same => ?_⟩
  exact congrArg (fun text => some (wordKind (String.ofList text))) same

/-- A match as a name goes no further than the piece. -/
lemma name (h : text ∈ (token .name).language) (rest : List Char) :
    (token .name).Reached text rest := word h rest

/-- A match as a keyword goes no further than the piece. -/
lemma keyword {kind : Kind} (ne : kind ≠ .name)
    (h : kind.spelling.toList ∈ (token .name).language)
    (same : wordKind (String.ofList kind.spelling.toList) = kind) (rest : List Char) :
    (token kind).Reached kind.spelling.toList rest := by
  obtain ⟨piece, tail, found, reached, kinds⟩ := word h rest
  refine ⟨piece, tail, found, reached, fun e => ?_⟩
  rw [kinds e, same, kindOf, if_neg (by simpa using ne)]
  rfl

/-- A match as a number goes no further than the piece. -/
lemma number (h : text ∈ (token .number).language) (rest : List Char) :
    (token .number).Reached text rest := by
  obtain h | ⟨whole, fraction, hw, hf, rfl⟩ := mem_number.1 h
  · obtain ⟨c, cs, hc, _, rfl⟩ := mem_oneOf_mul.1 h
    refine ⟨_, _, piece?_number hc, ?_, fun _ => kind_numberPiece _⟩
    exact (prefix_takeWhile (mem_someOf.1 h).2 rest).trans (takeWhile_prefix_numberPiece _)
  · obtain ⟨c, cs, hc, _, rfl⟩ := mem_oneOf_mul.1 hw
    obtain ⟨d, ds, hd, each, rfl⟩ := mem_oneOf_mul.1 hf
    have found : piece? (c :: cs ++ '.' :: d :: ds ++ rest) =
        some (numberPiece (c :: cs ++ '.' :: d :: (ds ++ rest))) := by
      rw [List.append_assoc]
      exact piece?_number hc
    rw [numberPiece_point (mem_someOf.1 hw).2 hd] at found
    refine ⟨_, _, found, ?_, fun _ => rfl⟩
    refine (List.prefix_append_right_inj _).2 ?_
    simpa using prefix_takeWhile (mem_kstar_oneOf.1 each) rest

/-- A match as a string goes no further than the piece. -/
lemma string (h : text ∈ (token .string).language) (rest : List Char) :
    (token .string).Reached text rest := by
  exact ⟨_, _, piece?_of_string h rest, List.prefix_refl _, fun _ => rfl⟩

/-- A match as a comment goes no further than the piece. -/
lemma comment (h : text ∈ comment.language) (rest : List Char) :
    comment.Reached text rest := by
  obtain ⟨cs, each, rfl⟩ := mem_comment.1 h
  have all : ∀ c ∈ '-' :: '-' :: cs, decide (c ≠ '\n') = true := by simpa using each
  exact ⟨_, _, rfl, prefix_takeWhile all rest, fun _ => rfl⟩

/-- A match as a separator goes no further than the piece. -/
lemma separator (h : text ∈ separator.language) (rest : List Char) :
    separator.Reached text rest := by
  obtain ⟨ne, each⟩ := mem_separator.1 h
  obtain ⟨c, cs, rfl⟩ := List.exists_cons_of_ne_nil ne
  exact ⟨_, _, piece?_separator (List.forall_mem_cons.1 each).1, prefix_takeWhile each rest,
    fun _ => rfl⟩

/-- A match as a symbol goes no further than the piece. -/
lemma symbol {kind : Kind} (ne : kind ≠ .name) {tail : List Char}
    (found : piece? (kind.spelling.toList ++ rest) =
      some (⟨some kind, kind.spelling.toList⟩, tail)) :
    (token kind).Reached kind.spelling.toList rest := by
  refine ⟨_, _, found, List.prefix_refl _, fun _ => ?_⟩
  rw [kindOf, if_neg (by simpa using ne)]
  rfl

/-- A symbol that is the start of something longer if a certain character follows. -/
lemma extensible {kind : Kind} (ne : kind ≠ .name) (c d : Char)
    (spelled : kind.spelling.toList = [c])
    (alone : (∀ cs, rest ≠ d :: cs) → piece? (c :: rest) = some (⟨some kind, [c]⟩, rest))
    (longer : ∀ cs, ∃ piece tail, piece? (c :: d :: cs) = some (piece, tail) ∧
      [c, d] <+: piece.text) : (token kind).Reached kind.spelling.toList rest := by
  by_cases follows : ∃ cs, rest = d :: cs
  · obtain ⟨cs, rfl⟩ := follows
    obtain ⟨piece, tail, found, start⟩ := longer cs
    rw [spelled]
    refine ⟨piece, tail, found, (List.prefix_append [c] [d]).trans start, fun e => ?_⟩
    rw [e] at start
    exact absurd start.length_le (by simp)
  · have found : piece? (kind.spelling.toList ++ rest) =
        some (⟨some kind, kind.spelling.toList⟩, rest) := by
      rw [spelled]
      exact alone fun cs e => follows ⟨cs, e⟩
    exact symbol ne found

/-- A symbol that may go on with a sign of equality. -/
lemma beforeEqual {kind : Kind} (ne : kind ≠ .name) (c : Char)
    (spelled : kind.spelling.toList = [c])
    (symbols : ∀ cs, piece? (c :: cs) = (symbol? (c :: cs)).map fun (kind, length) =>
      (⟨some kind, (c :: cs).take length⟩, (c :: cs).drop length))
    (alone : (∀ cs, rest ≠ '=' :: cs) → symbol? (c :: rest) = some (kind, 1))
    (longer : ∀ cs, ∃ longer, symbol? (c :: '=' :: cs) = some (longer, 2)) :
    (token kind).Reached kind.spelling.toList rest := by
  refine extensible ne c '=' spelled (fun h => ?_) fun cs => ?_
  · rw [symbols, alone h]
    rfl
  · obtain ⟨longer, found⟩ := longer cs
    rw [symbols, found]
    exact ⟨_, _, rfl, List.prefix_refl _⟩

end Reached

open Reached in
/-- No match of a terminal goes on further than the piece. -/
lemma Reached.of_mem {terminal : Terminal} {text : List Char} (h : text ∈ terminal.language)
    (rest : List Char) : terminal.Reached text rest := by
  cases terminal with
  | comment => exact Reached.comment h rest
  | separator => exact Reached.separator h rest
  | token kind =>
    cases kind with
    | name => exact Reached.name h rest
    | number => exact Reached.number h rest
    | string => exact Reached.string h rest
    | assign =>
      -- Four signs may go on to one with an equality sign, and a minus sign to a comment.
      obtain rfl := h
      exact beforeEqual (by decide) '=' rfl (fun _ => rfl)
        (fun alone => by rw [symbol?]; exact alone) fun _ => ⟨_, rfl⟩
    | bang =>
      obtain rfl := h
      exact beforeEqual (by decide) '!' rfl (fun _ => rfl)
        (fun alone => by rw [symbol?]; exact alone) fun _ => ⟨_, rfl⟩
    | less =>
      obtain rfl := h
      exact beforeEqual (by decide) '<' rfl (fun _ => rfl)
        (fun alone => by rw [symbol?]; exact alone) fun _ => ⟨_, rfl⟩
    | greater =>
      obtain rfl := h
      exact beforeEqual (by decide) '>' rfl (fun _ => rfl)
        (fun alone => by rw [symbol?]; exact alone) fun _ => ⟨_, rfl⟩
    | minus =>
      obtain rfl := h
      refine extensible (by decide) '-' '-' rfl (fun alone => ?_) fun cs =>
        ⟨_, _, rfl, List.prefix_append ['-', '-'] _⟩
      rw [piece?]
      · rfl
      · exact fun cs _ => alone cs
    | letWord | fnWord | ifWord | elifWord | elseWord | loopWord | returnWord | continueWord
    | breakWord | trueWord | falseWord =>
      obtain rfl := h
      refine keyword (by decide) ?_ rfl rest
      exact mem_name_of_all rfl rfl
    | _ =>
      obtain rfl := h
      exact symbol (by decide) rfl

end Terminal

open Terminal

/-- The piece of a word is a match as a name. -/
lemma wordPiece_text_mem {c : Char} (h : isNameStart c = true) (cs : List Char) :
    (wordPiece (c :: cs)).1.text ∈ (token .name).language := by
  have text : (wordPiece (c :: cs)).1.text = c :: cs.takeWhile isNamePart :=
    List.takeWhile_cons_of_pos (isNamePart_of_isNameStart h)
  rw [text]
  exact mem_name.2 ⟨c, _, h, fun _ => List.mem_takeWhile_imp, rfl⟩

/-- Keywords are matches of their own terminals. -/
lemma keywords_language :
    ∀ entry ∈ keywords, entry.1.toList ∈ (token entry.2).language := by
  simp only [keywords, List.forall_mem_cons]
  exact ⟨rfl, rfl, rfl, rfl, rfl, rfl, rfl, rfl, rfl, rfl, rfl, nofun⟩

/-- A word is matched by the terminal of its kind. -/
lemma mem_wordKind {text : List Char} (h : text ∈ (token .name).language) :
    text ∈ (token (wordKind (String.ofList text))).language := by
  unfold wordKind
  cases found : keywords.lookup (String.ofList text) with
  | none => exact h
  | some kind =>
    obtain ⟨before, after, split, _⟩ := List.lookup_eq_some_iff.1 found
    have mem : (String.ofList text, kind) ∈ keywords := by
      rw [split]
      exact List.mem_append_right _ List.mem_cons_self
    have matched := keywords_language _ mem
    rwa [String.toList_ofList] at matched

/-- The piece of a number is a match as a number. -/
lemma numberPiece_text_mem {c : Char} (h : isDigit c = true) (cs : List Char) :
    (numberPiece (c :: cs)).1.text ∈ (token .number).language := by
  have whole : (c :: cs).takeWhile isDigit ∈ someOf isDigit := by
    rw [List.takeWhile_cons_of_pos h]
    exact mem_oneOf_mul.2 ⟨c, _, h, mem_kstar_oneOf.2 fun _ => List.mem_takeWhile_imp, rfl⟩
  unfold numberPiece
  split
  · rename_i d rest _
    split
    case isTrue hd =>
      have fraction : d :: rest.takeWhile isDigit ∈ someOf isDigit :=
        mem_oneOf_mul.2 ⟨d, _, hd, mem_kstar_oneOf.2 fun _ => List.mem_takeWhile_imp, rfl⟩
      exact mem_number.2 (.inr ⟨_, _, whole, fraction, rfl⟩)
    case isFalse => exact mem_number.2 (.inl whole)
  · exact mem_number.2 (.inl whole)

/-- One more word of a language may stand before some. -/
lemma append_mem_kstar {l : Language Char} {a b : List Char} (ha : a ∈ l) (hb : b ∈ l∗) :
    a ++ b ∈ l∗ := by
  obtain ⟨words, rfl, each⟩ := Language.mem_kstar.1 hb
  exact Language.mem_kstar.2 ⟨a :: words, rfl, List.forall_mem_cons.2 ⟨ha, each⟩⟩

/-- What is taken up to the closing quote are parts of a string, and the quote. -/
lemma mem_of_stringTail? {cs text rest : List Char} (h : stringTail? cs = some (text, rest)) :
    ∃ parts ∈ stringPart∗, text = parts ++ ['\x22'] := by
  fun_induction stringTail? cs generalizing text rest with
  | case1 => cases h
  | case2 => cases h
  | case3 c tail ne ih =>
    obtain ⟨⟨t, r⟩, ht, e⟩ := Option.map_eq_some_iff.1 h
    cases e
    obtain ⟨parts, mem, rfl⟩ := ih ht
    have escaped : ['\\', c] ∈ stringPart := .inr ⟨_, rfl, _, ⟨c, by simpa using ne, rfl⟩, rfl⟩
    exact ⟨['\\', c] ++ parts, append_mem_kstar escaped mem, rfl⟩
  | case4 => cases h
  | case5 tail =>
    cases h
    exact ⟨[], Language.nil_mem_kstar _, rfl⟩
  | case6 c tail _ slash quote ih =>
    obtain ⟨⟨t, r⟩, ht, e⟩ := Option.map_eq_some_iff.1 h
    cases e
    obtain ⟨parts, mem, rfl⟩ := ih ht
    exact ⟨[c] ++ parts, append_mem_kstar (.inl ⟨c, by simp [slash, quote], rfl⟩) mem, rfl⟩

/-- A symbol is a match of its own terminal. -/
lemma mem_of_symbol? {cs : List Char} {kind : Kind} {length : Nat}
    (h : symbol? cs = some (kind, length)) : cs.take length ∈ (token kind).language := by
  unfold symbol? at h
  split at h <;> cases h <;> rfl

/-- A piece is a match of some terminal. -/
lemma matched_of_piece? {cs rest : List Char} {piece : Piece}
    (h : piece? cs = some (piece, rest)) :
    ∃ terminal : Terminal, terminal.kind? = piece.kind ∧ piece.text ∈ terminal.language := by
  unfold piece? at h
  -- The cases are those of the scanner, in the order in which it tries them.
  split at h
  case h_1 => cases h
  case h_2 tail =>
    cases h
    refine ⟨.comment, rfl, mem_comment.2 ⟨tail.takeWhile (· ≠ '\n'), fun c mem => ?_, rfl⟩⟩
    simpa using List.mem_takeWhile_imp mem
  case h_3 c tail _ =>
    split at h
    case isTrue name =>
      cases h
      exact ⟨_, rfl, mem_wordKind (wordPiece_text_mem name tail)⟩
    case isFalse =>
      split at h
      case isTrue digit =>
        have matched := numberPiece_text_mem digit tail
        have kind := kind_numberPiece (c :: tail)
        rw [Option.some.inj h] at matched kind
        exact ⟨.token .number, kind.symm, matched⟩
      case isFalse =>
        split at h
        case isTrue separates =>
          cases h
          refine ⟨.separator, rfl, mem_separator.2 ⟨?_, fun _ => List.mem_takeWhile_imp⟩⟩
          show (c :: tail).takeWhile isSeparator ≠ []
          rw [List.takeWhile_cons_of_pos separates]
          exact List.cons_ne_nil _ _
        case isFalse =>
          split at h
          case isTrue quote =>
            obtain ⟨⟨text, rest⟩, found, e⟩ := Option.map_eq_some_iff.1 h
            cases e
            obtain ⟨parts, mem, rfl⟩ := mem_of_stringTail? found
            exact ⟨_, rfl, mem_string.2 ⟨parts, mem, by rw [quote]⟩⟩
          case isFalse =>
            obtain ⟨⟨kind, length⟩, found, e⟩ := Option.map_eq_some_iff.1 h
            cases e
            exact ⟨_, rfl, mem_of_symbol? found⟩

/-- Only names are told apart by their text. -/
lemma Terminal.kindOf_of_ne {terminal : Terminal} (ne : terminal ≠ .token .name)
    (text : List Char) : terminal.kindOf text = terminal.kind? := if_neg ne

/-- Only one terminal is that of names. -/
lemma Terminal.eq_name {terminal : Terminal} (h : terminal.kind? = some .name) :
    terminal = .token .name := by
  cases terminal with
  | token kind =>
    cases h
    rfl
  | comment | separator => cases h

/-- The piece that is taken is the longest match, and no other piece is. -/
lemma piece?_eq_some_iff {cs rest : List Char} {piece : Piece} :
    piece? cs = some (piece, rest) ↔ piece.text ++ rest = cs ∧ piece.IsLongestMatch rest := by
  constructor
  · intro h
    have split := piece?_append h
    obtain ⟨terminal, kind, matched⟩ := matched_of_piece? h
    refine ⟨split, ⟨terminal, kind, matched, ?_⟩, fun other text mem start => ?_⟩
    · rintro rfl other mem
      obtain ⟨_, _, found, _, kinds⟩ := Reached.of_mem mem rest
      rw [split, h] at found
      cases found
      by_contra ne
      have := kinds rfl
      rw [kindOf_of_ne ne, ← kind] at this
      exact ne (eq_name this.symm)
    · obtain ⟨tail, e⟩ := start
      obtain ⟨_, _, found, reached, _⟩ := Reached.of_mem mem tail
      rw [e, split, h] at found
      cases found
      exact reached.length_le
  · rintro ⟨rfl, ⟨terminal, kind, matched, only⟩, longest⟩
    obtain ⟨found, tail, h, reached, kinds⟩ := Reached.of_mem matched rest
    obtain ⟨other, _, mem⟩ := matched_of_piece? h
    have split := piece?_append h
    have same : found.text = piece.text :=
      (reached.eq_of_length_le (longest other _ mem ⟨tail, split⟩)).symm
    rw [same, List.append_cancel_left_eq] at split
    rw [h, split]
    have same_kind : found.kind = piece.kind := by
      rw [kinds same, ← kind]
      unfold kindOf
      split
      case isTrue name =>
        subst name
        -- The text of a name is no keyword, or the terminal of the keyword would match it too.
        have word : token (wordKind (String.ofList piece.text)) = token .name :=
          only rfl _ (mem_wordKind matched)
        rw [Terminal.token.inj word]
        rfl
      case isFalse => rfl
    obtain ⟨foundKind, foundText⟩ := found
    cases same
    cases same_kind
    rfl

/-- No piece is taken where no terminal has a match. -/
lemma piece?_eq_none_iff {cs : List Char} : piece? cs = none ↔
    ∀ (terminal : Terminal) (text : List Char), text ∈ terminal.language → ¬ text <+: cs := by
  constructor
  · rintro h terminal text mem ⟨rest, rfl⟩
    obtain ⟨_, _, found, _⟩ := Reached.of_mem mem rest
    rw [h] at found
    cases found
  · intro none
    cases h : piece? cs with
    | none => rfl
    | some result =>
      obtain ⟨terminal, _, mem⟩ := matched_of_piece? h
      exact absurd ⟨_, piece?_append h⟩ (none terminal _ mem)

end ScriptLang.Token
