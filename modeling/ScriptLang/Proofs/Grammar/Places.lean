import ScriptLang.Proofs.Grammar.Script
import ScriptLang.Proofs.Program.Nodes
import ScriptLang.Proofs.Text.Lines
import ScriptLang.Proofs.Token.Gaps

/-!
# Places in scripts

Where in its text a script is refused, and where its statements start. An error that is found at
something is placed where that stands (`stands_of_parse_error`), and every statement of a program is
read from tokens that stand one after the other, with the line of the first of them
(`Derives.coveredBy`).
-/

namespace ScriptLang
open Token Text

/-- A text stands at a place in a script. It starts and ends with characters that do not separate
tokens. -/
structure StandsAt (source text : List Char) (position : Position) : Prop where
  starts : ∃ c ∈ text.head?, isSeparator c = false
  ends : ∀ c ∈ text.getLast?, isSeparator c = false
  place : ∃ before rest, source = before ++ (text ++ rest) ∧ position = .after before

/-- A text that stands somewhere is not empty. -/
lemma StandsAt.ne_nil {source text : List Char} {position : Position}
    (h : StandsAt source text position) : text ≠ [] := by
  rintro rfl
  obtain ⟨_, head, _⟩ := h.starts
  cases head

/-- What stands at a place begins in the line that the place names, at its column. -/
lemma StandsAt.feedLine {source text : List Char} {position : Position}
    (h : StandsAt source text position) : ∃ n left rest, position = ⟨n + 1, left.length + 1⟩ ∧
      (feedLines source)[n]? = some (left ++ (text ++ rest).takeWhile (· ≠ '\n')) := by
  obtain ⟨before, rest, rfl, rfl⟩ := h.place
  refine ⟨_, _, rest, ?_, feedLines_getElem? before (text ++ rest)⟩
  unfold Position.after
  rw [Nat.add_comm 1, Nat.add_comm 1]

/-- A token neither starts nor ends with a character that separates tokens. -/
lemma Token.Terminal.ends_of_token {kind : Kind} {text : List Char}
    (h : text ∈ (Terminal.token kind).language) :
    (∃ c ∈ text.head?, isSeparator c = false) ∧ ∀ c ∈ text.getLast?, isSeparator c = false := by
  by_cases string : kind = .string
  · subst string
    obtain ⟨parts, _, rfl⟩ := Terminal.mem_string.1 h
    refine ⟨⟨_, rfl, by decide⟩, ?_⟩
    rw [← List.cons_append, List.getLast?_concat]
    rintro _ ⟨⟩
    decide
  · have inside : ∀ c ∈ text, isSeparator c = false := by
      intro c mem
      by_contra separates
      obtain e | e | e := terminal_of_isSeparator h mem (eq_true_of_ne_false separates)
      · exact string (Terminal.token.inj e)
      · cases e
      · cases e
    refine ⟨?_, fun c last => inside c (List.mem_of_getLast? last)⟩
    obtain ⟨c, cs, rfl⟩ := List.exists_cons_of_ne_nil (Terminal.ne_nil h)
    exact ⟨c, rfl, inside c List.mem_cons_self⟩

/-- A token neither starts nor ends with what separates tokens. -/
lemma Token.ends_of_piece? {kind : Kind} {text cs rest : List Char}
    (h : piece? cs = some (⟨some kind, text⟩, rest)) :
    (∃ c ∈ text.head?, isSeparator c = false) ∧ ∀ c ∈ text.getLast?, isSeparator c = false := by
  obtain ⟨terminal, kinds, matched⟩ := matched_of_piece? h
  cases terminal with
  | token => exact Terminal.ends_of_token matched
  | comment | separator => cases kinds

/-- Tokens stand where they are placed. The induction is on the pieces that are left; those before
them only count as text. -/
lemma standsAt_of_mem {before cs rest : List Char} {pieces : List Piece} {token : Token}
    (tiling : Tiling cs pieces rest) (mem : token ∈ tokensAt (.after before) pieces) :
    StandsAt (before ++ cs) token.text.toList token.position := by
  induction pieces generalizing before cs with
  | nil => cases mem
  | cons piece pieces ih =>
    obtain ⟨tail, found, others⟩ := Tiling.cons_iff.1 tiling
    have split := piece?_append found
    have step : (Position.after before).advance piece.text = .after (before ++ piece.text) := by
      rw [← Position.start_advance, ← Position.start_advance]
      exact List.foldl_append.symm
    have later (mem : token ∈ tokensAt (.after (before ++ piece.text)) pieces) :
        StandsAt (before ++ cs) token.text.toList token.position := by
      have stands := ih others mem
      rwa [List.append_assoc, split] at stands
    obtain ⟨kind, text⟩ := piece
    unfold tokensAt at mem
    rw [step] at mem
    cases kind with
    | none => exact later mem
    | some kind =>
      obtain rfl | mem := List.mem_cons.1 mem
      · obtain ⟨starts, ends⟩ := ends_of_piece? found
        refine ⟨?_, ?_, before, tail, ?_, rfl⟩
        all_goals rw [String.toList_ofList]
        · exact starts
        · exact ends
        · exact congrArg _ split.symm
      · exact later mem

/-- A text that is scanned is covered by pieces, and its tokens are those among them. -/
lemma tokenize_eq_ok {source : String} {tokens : List Token} (h : tokenize source = .ok tokens) :
    ∃ pieces, Tiling source.toList pieces [] ∧ tokens = tokensAt .start pieces := by
  unfold tokenize scan at h
  cases e : cut source.toList with
  | mk pieces rest =>
    rw [e] at h
    cases rest with
    | nil =>
      cases h
      exact ⟨pieces, (cut_eq_iff.1 e).1, rfl⟩
    | cons => cases h

/-- A script is refused at the first character that no token starts with. -/
lemma tokenize_eq_error {source : String} {e : SyntaxError} (h : tokenize source = .error e) :
    ∃ pieces c rest, Tiling source.toList pieces (c :: rest) ∧ Unmatched (c :: rest) ∧
      e = .atCharacter ⟨c, .after (pieces.flatMap (·.text))⟩ := by
  unfold tokenize scan at h
  cases e : cut source.toList with
  | mk pieces rest =>
    rw [e] at h
    cases rest with
    | nil => cases h
    | cons c rest =>
      cases h
      obtain ⟨tiling, unmatched⟩ := cut_eq_iff.1 e
      exact ⟨pieces, c, rest, tiling, unmatched, by rw [← Position.start_advance]; rfl⟩

/-- The text of a token stands at its place. -/
lemma standsAt_of_tokenize {source : String} {tokens : List Token} {token : Token}
    (h : tokenize source = .ok tokens) (mem : token ∈ tokens) :
    StandsAt source.toList token.text.toList token.position := by
  obtain ⟨pieces, tiling, rfl⟩ := tokenize_eq_ok h
  have stands : StandsAt ([] ++ source.toList) _ _ := standsAt_of_mem tiling mem
  exact stands

/-- A character at which no token starts separates no tokens. -/
lemma not_isSeparator_of_unmatched {c : Char} {rest : List Char} (h : Unmatched (c :: rest)) :
    isSeparator c = false := by
  by_contra separates
  refine h .separator [c] (Terminal.mem_separator.2 ⟨List.cons_ne_nil _ _, ?_⟩) ⟨rest, rfl⟩
  simpa using separates

/-- What an error is found at stands at the place of the error. -/
lemma stands_of_parse_error {source : String} {e : SyntaxError} (h : parse source = .error e)
    (ne : e.found ≠ "") : StandsAt source.toList e.found.toList e.position := by
  rw [parse_eq] at h
  split at h
  case h_1 scanned =>
    cases h
    obtain ⟨pieces, c, rest, tiling, unmatched, rfl⟩ := tokenize_eq_error scanned
    have plain := not_isSeparator_of_unmatched unmatched
    have found : (SyntaxError.atCharacter ⟨c, .after (pieces.flatMap (·.text))⟩).found.toList =
        [c] := String.toList_ofList
    rw [found]
    refine ⟨⟨c, rfl, plain⟩, ?_, _, rest, tiling.covers.symm, rfl⟩
    rintro _ ⟨⟩
    exact plain
  case h_2 tokens scanned =>
    split at h
    case h_2 => cases h
    case h_1 failure read =>
      cases h
      have suffix := suffix_of_parseTokens read
      obtain ⟨cause, rest⟩ := failure
      cases rest with
      | nil => exact absurd rfl ne
      | cons token rest =>
        exact standsAt_of_tokenize scanned (suffix.subset List.mem_cons_self)

/-- All nodes of what a phrase stands for. -/
def Phrase.nodes (l : Bool) : Phrase → List Node
  | operand _ e | expression e => e.nodes
  | elements es => Expression.allNodes es
  | statement s | conditional _ s => s.nodes l
  | alternative none => []
  | alternative (some b) | block b | statements b => Statement.allNodes l b

/-- A statement is read from tokens, by itself or behind an earlier condition. -/
def Statement.ReadFrom (l : Bool) (s : Statement) (ts : List Token) : Prop :=
  Derives l (.statement s) ts ∨ ∃ word, Derives l (.conditional word s) ts

/-- A statement is read from some of the tokens, which stand one after the other. -/
def Statement.ReadAmong (l : Bool) (s : Statement) (ts : List Token) : Prop :=
  ∃ us, us <:+: ts ∧ s.ReadFrom l us

/-- The line of a statement is that of its first token. -/
lemma Statement.ReadFrom.line {l : Bool} {s : Statement} {ts : List Token} (h : s.ReadFrom l ts) :
    ∃ first rest, ts = first :: rest ∧ s.line = some first.position.line := by
  have conditional {word : Token.Kind} {s : Statement} {ts : List Token}
      (h : Derives l (.conditional word s) ts) :
      ∃ first rest, ts = first :: rest ∧ s.line = some first.position.line := by
    cases h
    exact ⟨_, _, rfl, rfl⟩
  obtain h | ⟨_, h⟩ := h
  · cases h with
    | branch h => exact conditional h
    | _ => exact ⟨_, _, rfl, rfl⟩
  · exact conditional h

/-- The statements among nodes are read from some of the tokens. -/
def CoveredBy (ts : List Token) (nodes : List Node) : Prop :=
  ∀ l s, Node.statement l s ∈ nodes → s.ReadAmong l ts

namespace CoveredBy
variable {ts us : List Token} {nodes others : List Node}

/-- Without nodes there is nothing to cover. -/
lemma nil : CoveredBy ts [] := nofun

/-- What tokens cover is covered by more of them. -/
lemma mono (h : CoveredBy ts nodes) (sub : ts <:+: us) : CoveredBy us nodes := by
  intro l s mem
  obtain ⟨vs, among, read⟩ := h l s mem
  exact ⟨vs, among.trans sub, read⟩

/-- What tokens cover is covered with more tokens behind them. -/
lemma left (h : CoveredBy ts nodes) (us : List Token) : CoveredBy (ts ++ us) nodes :=
  h.mono (List.prefix_append ts us).isInfix

/-- What tokens cover is covered with more tokens before them. -/
lemma right (h : CoveredBy us nodes) (ts : List Token) : CoveredBy (ts ++ us) nodes :=
  h.mono (List.suffix_append ts us).isInfix

/-- What tokens cover is covered with one more token before them. -/
lemma cons (h : CoveredBy ts nodes) (token : Token) : CoveredBy (token :: ts) nodes :=
  h.right [token]

/-- Tokens cover nodes together that they cover apart. -/
lemma append (h : CoveredBy ts nodes) (h' : CoveredBy ts others) :
    CoveredBy ts (nodes ++ others) := by
  intro l s mem
  rcases List.mem_append.1 mem with mem | mem
  · exact h l s mem
  · exact h' l s mem

/-- An expression has no place of its own to cover. -/
lemma expression (h : CoveredBy ts nodes) (e : Expression) :
    CoveredBy ts (.expression e :: nodes) := by
  intro l s mem
  rcases List.mem_cons.1 mem with e | mem
  · cases e
  · exact h l s mem

/-- Tokens cover a statement that is read from them. -/
lemma statement {l : Bool} {s : Statement} (read : s.ReadFrom l ts) (h : CoveredBy ts nodes) :
    CoveredBy ts (.statement l s :: nodes) := by
  intro l s mem
  rcases List.mem_cons.1 mem with e | mem
  · cases e
    exact ⟨ts, List.infix_refl ts, read⟩
  · exact h l s mem

end CoveredBy

/-- All statements of what tokens are read as, also those in the bodies of functions, are read from
some of the tokens. -/
lemma Derives.coveredBy {l : Bool} {ph : Phrase} {ts : List Token} (h : Derives l ph ts) :
    CoveredBy ts (ph.nodes l) := by
  induction h with
  | bare _ _ ih => exact ih
  | grouped _ _ _ ih => exact (ih.left _).cons _
  | number | string | trueWord | falseWord | identifier => exact .expression .nil _
  | function _ _ _ ih => exact .expression ((ih.right _).cons _) _
  | list _ _ _ ih => exact .expression ((ih.left _).cons _) _
  | unary _ _ ih => exact .expression (ih.cons _) _
  | binary _ _ _ ih ih' => exact .expression ((ih.left _).append ((ih'.cons _).right _)) _
  | assign _ _ _ ih ih' => exact .expression ((ih.left _).append ((ih'.cons _).right _)) _
  | call _ _ _ _ ih ih' =>
    exact .expression ((ih.left _).append (((ih'.left _).cons _).right _)) _
  | member _ _ _ ih => exact .expression (ih.left _) _
  | index _ _ _ _ ih ih' =>
    exact .expression ((ih.left _).append (((ih'.left _).cons _).right _)) _
  | noElements => exact .nil
  | lastElement _ ih => exact ih.append .nil
  | moreElements _ _ _ ih ih' => exact (ih.left _).append ((ih'.cons _).right _)
  | declare first name sign h ih =>
    exact .statement (.inl (.declare first name sign h)) (((ih.cons _).cons _).cons _)
  | define first name parameters h ih =>
    exact .statement (.inl (.define first name parameters h)) (((ih.right _).cons _).cons _)
  | branch _ ih => exact ih
  | @conditional l word condition consequent alternative ts us vs first kind h hb ha ih ih' ih'' =>
    -- It may start with `if` or with `elif`, so it is read as a conditional, not as a statement.
    have read := Derives.conditional kind h hb ha
    have tested : CoveredBy (first :: (ts ++ (us ++ vs))) condition.nodes := (ih.left _).cons _
    have taken : CoveredBy (first :: (ts ++ (us ++ vs))) (Statement.allNodes l consequent) :=
      ((ih'.left _).right _).cons _
    cases alternative with
    | none => exact .statement (.inr ⟨_, read⟩) (tested.append taken)
    | some b =>
      exact .statement (.inr ⟨_, read⟩)
        (tested.append (taken.append (((ih''.right _).right _).cons _)))
  | noAlternative => exact .nil
  | chained _ ih => exact ih.append .nil
  | otherwise _ _ ih => exact ih.cons _
  | loop first h ih => exact .statement (.inl (.loop first h)) (ih.cons _)
  | loopOver first opening word name colon h closing hb ih ih' =>
    refine .statement (.inl (.loopOver first opening word name colon h closing hb)) ?_
    exact ((((((ih.left _).append ((ih'.cons _).right _)).cons _).cons _).cons _).cons _).cons _
  | returns first h ih => exact .statement (.inl (.returns first h)) (ih.cons _)
  | returnsNothing first => exact .statement (.inl (.returnsNothing first)) .nil
  | breakLoop first => exact .statement (.inl (.breakLoop first)) .nil
  | continueLoop first => exact .statement (.inl (.continueLoop first)) .nil
  | evaluate h ih => exact .statement (.inl (.evaluate h)) ih
  | block _ _ _ ih => exact (ih.left _).cons _
  | noStatements => exact .nil
  | moreStatements _ _ _ ih ih' => exact (ih.left _).append (ih'.right _)

end ScriptLang
