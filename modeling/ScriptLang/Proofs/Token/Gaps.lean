import ScriptLang.Proofs.Token.Tiling

/-!
# Gaps between tokens

A gap is a text that keeps tokens apart: it starts with a character that separates tokens, and goes
on with more of them and with comments that end with their line. Whatever stands between the tokens
of a script, the same tokens are found if gaps are put there (`tokenize_spaced`): a token that is
the longest match where it stands is so before a gap, and a gap is cut into pieces that are no
tokens.
-/

namespace ScriptLang

/-- The kind and the text of a token. -/
def Token.content (t : Token) : Token.Kind × String := (t.kind, t.text)

namespace Token

open scoped Computability

/-- The texts that may keep tokens apart. -/
def gap : Language Char :=
  oneOf isSeparator * (oneOf isSeparator + Terminal.comment.language * {['\n']})∗

/-- Tokens with a text behind each. -/
def spaced (tokens : List (Token × List Char)) : List Char :=
  tokens.flatMap fun (token, after) => token.text.toList ++ after

/-- The first token is followed by its gap and the others. -/
lemma spaced_cons (token : Token) (after : List Char) (tokens : List (Token × List Char)) :
    spaced ((token, after) :: tokens) = token.text.toList ++ (after ++ spaced tokens) := by
  unfold spaced
  rw [List.flatMap_cons, List.append_assoc]

/-- The kind and the text of the token that a piece is. -/
def Piece.content? (piece : Piece) : Option (Kind × String) :=
  piece.kind.map fun kind => (kind, String.ofList piece.text)

/-- What tokens are has nothing to do with where they stand. -/
lemma tokensAt_content (position : Position) (pieces : List Piece) :
    (tokensAt position pieces).map content = pieces.filterMap Piece.content? := by
  induction pieces generalizing position with
  | nil => rfl
  | cons piece pieces ih =>
    unfold tokensAt
    rw [List.filterMap_cons]
    unfold Piece.content?
    cases piece.kind with
    | none => exact ih _
    | some kind => exact congrArg _ (ih _)

/-- No spelling has a character that separates tokens. -/
lemma not_isSeparator_of_spelling (kind : Kind) :
    kind.spelling.toList.all fun c => !isSeparator c := by
  cases kind <;> rfl

/-- Tokens other than strings hold no character that separates tokens. -/
lemma terminal_of_isSeparator {terminal : Terminal} {text : List Char} {c : Char}
    (h : text ∈ terminal.language) (mem : c ∈ text) (separates : isSeparator c = true) :
    terminal = .token .string ∨ terminal = .comment ∨ terminal = .separator := by
  obtain ⟨start, digit⟩ := not_start_of_isSeparator separates
  have part : isNamePart c = false := by
    unfold isNamePart
    rw [start, digit]
    rfl
  cases terminal with
  | comment => exact .inr (.inl rfl)
  | separator => exact .inr (.inr rfl)
  | token kind =>
    -- All other tokens have one spelling only, which shows no such character.
    have spelled (h : text = kind.spelling.toList) : False := by
      subst h
      have all := List.all_eq_true.1 (not_isSeparator_of_spelling kind) c mem
      rw [separates] at all
      cases all
    cases kind with
    | string => exact .inl rfl
    | name =>
      obtain ⟨d, ds, hd, each, rfl⟩ := Terminal.mem_name.1 h
      rcases List.mem_cons.1 mem with rfl | mem
      · cases start.symm.trans hd
      · cases part.symm.trans (each c mem)
    | number =>
      have digits {l : List Char} (hl : l ∈ someOf isDigit) : c ∉ l := fun mem => by
        cases digit.symm.trans ((mem_someOf.1 hl).2 c mem)
      obtain whole | ⟨whole, fraction, hw, hf, rfl⟩ := Terminal.mem_number.1 h
      · exact absurd mem (digits whole)
      · rcases List.mem_append.1 mem with mem | mem
        · exact absurd mem (digits hw)
        · rcases List.mem_cons.1 mem with rfl | mem
          · cases separates
          · exact absurd mem (digits hf)
    | _ => exact (spelled h).elim

/-- A piece that starts with a quote is a string. -/
lemma mem_string_of_piece? {cs rest : List Char} {piece : Piece}
    (h : piece? ('\x22' :: cs) = some (piece, rest)) :
    piece.text ∈ (Terminal.token .string).language := by
  rw [piece?_string] at h
  obtain ⟨⟨text, rest⟩, found, e⟩ := Option.map_eq_some_iff.1 h
  cases e
  obtain ⟨parts, mem, rfl⟩ := mem_of_stringTail? found
  exact Terminal.mem_string.2 ⟨parts, mem, rfl⟩

/-- No match goes on from a token into what separates tokens. -/
lemma not_mem_of_isSeparator {kind : Kind} {text rest more : List Char} {c : Char}
    (found : piece? (text ++ rest) = some (⟨some kind, text⟩, rest))
    (separates : isSeparator c = true) (terminal : Terminal) :
    text ++ c :: more ∉ terminal.language := by
  intro matched
  obtain ⟨_, _, mem⟩ := matched_of_piece? found
  obtain ⟨d, ds, rfl⟩ := List.exists_cons_of_ne_nil (Terminal.ne_nil mem)
  obtain rfl | rfl | rfl :=
    terminal_of_isSeparator matched (List.mem_append_right _ List.mem_cons_self) separates
  · -- A token that starts with a quote is a string itself, and strings end where they end.
    obtain ⟨parts, _, e⟩ := Terminal.mem_string.1 matched
    obtain rfl : d = '\x22' := (List.cons.inj e).1
    have shorter := piece?_of_string (mem_string_of_piece? found) (c :: more)
    have longer := piece?_of_string matched []
    rw [List.append_nil, shorter] at longer
    cases (Prod.mk.inj (Option.some.inj longer)).2
  · obtain ⟨tail, _, e⟩ := Terminal.mem_comment.1 matched
    cases ds with
    | nil =>
      obtain ⟨_, rfl, _⟩ : d = '-' ∧ c = '-' ∧ more = tail := by simpa using e
      cases separates
    | cons d' ds =>
      obtain ⟨rfl, rfl, _⟩ : d = '-' ∧ d' = '-' ∧ ds ++ c :: more = tail := by simpa using e
      cases found
  · have separator := (Terminal.mem_separator.1 matched).2 d List.mem_cons_self
    rw [List.cons_append, piece?_separator separator] at found
    cases found

/-- A token is the piece that it is also before what separates tokens. -/
lemma piece?_before_separator {kind : Kind} {text rest after : List Char}
    (found : piece? (text ++ rest) = some (⟨some kind, text⟩, rest))
    (separates : ∀ c ∈ after.head?, isSeparator c = true) :
    piece? (text ++ after) = some (⟨some kind, text⟩, after) := by
  obtain ⟨_, matched, _⟩ := piece?_eq_some_iff.1 found
  refine piece?_eq_some_iff.2 ⟨rfl, matched, fun terminal other mem start => ?_⟩
  by_contra longer
  obtain ⟨more, rfl⟩ := List.prefix_of_prefix_length_le (List.prefix_append text after) start
    (Nat.le_of_not_le longer)
  cases more with
  | nil => simp at longer
  | cons c more =>
    obtain ⟨tail, rfl⟩ := (List.prefix_append_right_inj text).1 start
    exact not_mem_of_isSeparator found (separates c rfl) terminal mem

/-- Pieces that hold the same tokens, also of texts with different places. -/
def SameTokens (pieces pieces' : List Piece) : Prop :=
  pieces'.filterMap Piece.content? = pieces.filterMap Piece.content?

/-- A character that separates tokens changes no token behind it. -/
lemma Tiling.cons_separator {c : Char} {cs : List Char} {pieces : List Piece}
    (separates : isSeparator c = true) (h : Tiling cs pieces []) :
    ∃ pieces', Tiling (c :: cs) pieces' [] ∧ SameTokens pieces pieces' := by
  have found : piece? (c :: cs) =
      some (⟨none, c :: cs.takeWhile isSeparator⟩, cs.dropWhile isSeparator) := by
    rw [piece?_separator separates, spanPiece, List.takeWhile_cons_of_pos separates,
      List.dropWhile_cons_of_pos separates]
  cases pieces with
  | nil =>
    obtain rfl := Tiling.nil_iff.1 h
    exact ⟨_, Tiling.cons_iff.2 ⟨_, found, h⟩, rfl⟩
  | cons piece pieces =>
    obtain ⟨tail, first, others⟩ := Tiling.cons_iff.1 h
    cases cs with
    | nil => cases first
    | cons d ds =>
      by_cases more : isSeparator d = true
      · -- The character joins the separators that are there already.
        rw [piece?_separator more] at first
        cases first
        exact ⟨_, Tiling.cons_iff.2 ⟨_, found, others⟩, rfl⟩
      · rw [List.takeWhile_cons_of_neg more, List.dropWhile_cons_of_neg more] at found
        exact ⟨_, Tiling.cons_iff.2 ⟨_, found, h⟩, rfl⟩

/-- A comment that ends with its line changes no token behind it. -/
lemma Tiling.append_comment {comment cs : List Char} {pieces : List Piece}
    (h : comment ∈ Terminal.comment.language) (tiling : Tiling cs pieces []) :
    ∃ pieces', Tiling (comment ++ '\n' :: cs) pieces' [] ∧ SameTokens pieces pieces' := by
  obtain ⟨pieces', feed, same⟩ := tiling.cons_separator (c := '\n') rfl
  obtain ⟨rest, each, rfl⟩ := Terminal.mem_comment.1 h
  have all : ∀ c ∈ '-' :: '-' :: rest, decide (c ≠ '\n') = true := by simpa using each
  have found : piece? ('-' :: '-' :: rest ++ '\n' :: cs) =
      some (⟨none, '-' :: '-' :: rest⟩, '\n' :: cs) := by
    change some (spanPiece none (· ≠ '\n') ('-' :: '-' :: rest ++ '\n' :: cs)) = _
    rw [spanPiece, List.takeWhile_append_of_pos all, List.dropWhile_append_of_pos all,
      List.takeWhile_cons_of_neg (by simp), List.dropWhile_cons_of_neg (by simp), List.append_nil]
  exact ⟨_, Tiling.cons_iff.2 ⟨_, found, feed⟩, same⟩

/-- What may follow the first character of a gap changes no token behind it. -/
lemma Tiling.append_filler {filler cs : List Char} {pieces : List Piece}
    (h : filler ∈ (oneOf isSeparator + Terminal.comment.language * {['\n']})∗)
    (tiling : Tiling cs pieces []) :
    ∃ pieces', Tiling (filler ++ cs) pieces' [] ∧ SameTokens pieces pieces' := by
  obtain ⟨parts, rfl, each⟩ := Language.mem_kstar.1 h
  clear h
  induction parts with
  | nil => exact ⟨pieces, tiling, rfl⟩
  | cons part parts ih =>
    obtain ⟨first, each⟩ := List.forall_mem_cons.1 each
    obtain ⟨behind, covers, same⟩ := ih each
    rw [List.flatten_cons, List.append_assoc]
    obtain ⟨c, separates, rfl⟩ | comment := first
    · obtain ⟨pieces', covers, same'⟩ := covers.cons_separator separates
      exact ⟨pieces', covers, same'.trans same⟩
    · obtain ⟨comment, mem, _, rfl, rfl⟩ := Language.mem_mul.1 comment
      obtain ⟨pieces', covers, same'⟩ := covers.append_comment mem
      rw [List.append_assoc]
      exact ⟨pieces', covers, same'.trans same⟩

/-- A gap changes no token behind it. -/
lemma Tiling.append_gap {text cs : List Char} {pieces : List Piece} (h : text ∈ gap)
    (tiling : Tiling cs pieces []) :
    ∃ pieces', Tiling (text ++ cs) pieces' [] ∧ SameTokens pieces pieces' := by
  obtain ⟨c, filler, separates, mem, rfl⟩ := mem_oneOf_mul.1 h
  obtain ⟨behind, covers, same⟩ := tiling.append_filler mem
  obtain ⟨pieces', covers, same'⟩ := covers.cons_separator separates
  exact ⟨pieces', covers, same'.trans same⟩

/-- What starts with a gap starts with what separates tokens. -/
lemma head?_append_gap {text : List Char} (h : text ∈ gap) (cs : List Char) :
    ∀ c ∈ (text ++ cs).head?, isSeparator c = true := by
  obtain ⟨c, filler, separates, _, rfl⟩ := mem_oneOf_mul.1 h
  rintro _ ⟨⟩
  exact separates

/-- The tokens of a text are found again if they have gaps behind them. -/
lemma Tiling.spaced {cs : List Char} {pieces : List Piece} (h : Tiling cs pieces [])
    (position : Position) {tokens : List (Token × List Char)}
    (found : tokensAt position pieces = tokens.map (·.1)) (gaps : ∀ t ∈ tokens, t.2 ∈ gap) :
    ∃ pieces', Tiling (Token.spaced tokens) pieces' [] ∧ SameTokens pieces pieces' := by
  induction pieces generalizing cs position tokens with
  | nil =>
    obtain rfl := List.map_eq_nil_iff.1 found.symm
    exact ⟨[], Tiling.nil_iff.2 rfl, rfl⟩
  | cons piece pieces ih =>
    obtain ⟨tail, first, others⟩ := Tiling.cons_iff.1 h
    obtain ⟨kind, text⟩ := piece
    cases kind with
    | none => exact ih others _ found gaps
    | some kind =>
      cases tokens with
      | nil => cases found
      | cons token tokens =>
        obtain ⟨token, after⟩ := token
        obtain ⟨rfl, later⟩ := List.cons.inj found
        obtain ⟨hafter, gaps⟩ := List.forall_mem_cons.1 gaps
        obtain ⟨rfl⟩ := piece?_append first
        obtain ⟨behind, covers, same⟩ := ih others _ later gaps
        obtain ⟨behind', covers', same'⟩ := covers.append_gap hafter
        have kept := piece?_before_separator first (head?_append_gap hafter (Token.spaced tokens))
        refine ⟨⟨some kind, text⟩ :: behind', ?_, ?_⟩
        · rw [spaced_cons, String.toList_ofList]
          exact Tiling.cons_iff.2 ⟨_, kept, covers'⟩
        · unfold SameTokens
          rw [List.filterMap_cons, List.filterMap_cons, same'.trans same]

/-- The same tokens are found in a script if gaps are put between them, whatever stood there. -/
lemma tokenize_spaced {source : String} {first : List Char} {tokens : List (Token × List Char)}
    (tokenized : tokenize source = .ok (tokens.map (·.1))) (before : first ∈ gap)
    (between : ∀ t ∈ tokens, t.2 ∈ gap) :
    ∃ found, tokenize (String.ofList (first ++ spaced tokens)) = .ok found ∧
      found.map content = tokens.map (·.1.content) := by
  cases h : cut source.toList with
  | mk pieces rest =>
    cases rest with
    | cons c rest =>
      unfold tokenize scan at tokenized
      rw [h] at tokenized
      cases tokenized
    | nil =>
      have found := Except.ok.inj ((tokenize_of_cut h).symm.trans tokenized)
      obtain ⟨behind, covers, same⟩ := (cut_eq_iff.1 h).1.spaced .start found between
      obtain ⟨pieces', covers', same'⟩ := covers.append_gap before
      refine ⟨tokensAt .start pieces', tokenize_of_cut ?_, ?_⟩
      · rw [String.toList_ofList]
        exact cut_eq_iff.2 ⟨covers', unmatched_nil⟩
      · rw [tokensAt_content, same'.trans same, ← tokensAt_content .start, found, List.map_map]
        rfl

end Token

end ScriptLang
