import ScriptLang.Proofs.Grammar.Script
import ScriptLang.Proofs.Token.Tiling
import ScriptLang.Value.Printer

/-!
# Texts that read as expressions

A text reads as an expression if, wherever it stands before a comma, a blank, a bracket, a point or
the end, it is cut into pieces of its own, and the tokens among these are derived as the expression.
Numbers, strings and booleans are single tokens, and such texts are put together to those of lists
and of negations. A script that returns such a text is read as the return of the expression
(`parse_return`).
-/

namespace ScriptLang
open Token

namespace Token

/-- The characters that may follow an expression whatever comes after them. -/
def closers : List Char := [',', ' ', '(', ')', '[', ']']

/-- A text may follow an expression: it starts with such a character, or with a point before a name,
if it is not empty. -/
def Closes (after : List Char) : Prop :=
  ∀ c ∈ after.head?, c ∈ closers ∨ c = '.' ∧ ∃ d ∈ after.tail.head?, isNameStart d = true

/-- The end may follow an expression. -/
lemma closes_nil : Closes [] := nofun

/-- Commas, blanks and brackets may follow an expression. -/
lemma closes_cons {c : Char} (h : c ∈ closers) (cs : List Char) : Closes (c :: cs) := by
  rintro _ ⟨⟩
  exact .inl h

/-- A point before a name may follow an expression. -/
lemma closes_point {d : Char} (h : isNameStart d = true) (cs : List Char) :
    Closes ('.' :: d :: cs) := by
  rintro _ ⟨⟩
  exact .inr ⟨rfl, d, rfl, h⟩

/-- A property of all that may follow holds of what follows. -/
lemma Closes.head {p : Char → Prop} [DecidablePred p] {after : List Char} (closes : Closes after)
    (h : ('.' :: closers).all (p ·) = true) : ∀ c ∈ after.head?, p c := by
  have each (c : Char) (mem : c ∈ '.' :: closers) : p c :=
    of_decide_eq_true (List.all_eq_true.1 h c mem)
  intro c mem
  obtain closer | ⟨rfl, _⟩ := closes c mem
  · exact each c (List.mem_cons_of_mem _ closer)
  · exact each '.' List.mem_cons_self

/-- A point that follows an expression belongs to no number. -/
lemma Closes.point {d : Char} {cs : List Char} (closes : Closes ('.' :: d :: cs)) :
    isDigit d = false := by
  obtain closer | ⟨_, _, ⟨⟩, start⟩ := closes '.' rfl
  · exact absurd closer (by decide)
  · by_contra digit
    rw [isNameStart_of_isDigit (eq_true_of_ne_false digit)] at start
    cases start

/-- A property of the first characters of two texts holds of that of both in a row. -/
lemma head?_append {p : Char → Prop} {text after : List Char} (h : ∀ c ∈ text.head?, p c)
    (h' : ∀ c ∈ after.head?, p c) : ∀ c ∈ (text ++ after).head?, p c := by
  cases text with
  | nil => exact h'
  | cons => exact h

/-- What starts a name or a number does not separate tokens. -/
lemma not_isSeparator {c : Char} (h : isNameStart c = true ∨ isDigit c = true) :
    isSeparator c = false := by
  by_contra separates
  obtain ⟨name, digit⟩ := not_start_of_isSeparator (eq_true_of_ne_false separates)
  rw [name, digit] at h
  simp at h

/-- Characters of a class are taken up to the first of another. -/
lemma takeWhile_append_stop {p : Char → Bool} {text after : List Char}
    (each : ∀ c ∈ text, p c = true) (stops : ∀ c ∈ after.head?, p c = false) :
    (text ++ after).takeWhile p = text ∧ (text ++ after).dropWhile p = after := by
  rw [List.takeWhile_append_of_pos each, List.dropWhile_append_of_pos each]
  cases after with
  | nil => exact ⟨List.append_nil _, rfl⟩
  | cons c cs =>
    have stop : ¬ p c = true := by rw [stops c rfl]; exact Bool.false_ne_true
    rw [List.takeWhile_cons_of_neg stop, List.dropWhile_cons_of_neg stop, List.append_nil]
    exact ⟨rfl, rfl⟩

/-- A word is the piece at the start of a text if no part of a name follows. -/
lemma piece?_of_word {word after : List Char} (h : word ∈ (Terminal.token .name).language)
    (stops : ∀ c ∈ after.head?, isNamePart c = false) :
    piece? (word ++ after) = some (⟨some (wordKind (String.ofList word)), word⟩, after) := by
  obtain ⟨c, cs, start, each, rfl⟩ := Terminal.mem_name.1 h
  have parts : ∀ d ∈ c :: cs, isNamePart d = true :=
    List.forall_mem_cons.2 ⟨isNamePart_of_isNameStart start, each⟩
  obtain ⟨taken, dropped⟩ := takeWhile_append_stop parts stops
  rw [List.cons_append] at taken dropped ⊢
  rw [piece?_word start]
  unfold wordPiece
  rw [taken, dropped]

/-- A number is the piece at the start of a text if it is not followed by a digit, or by a point
before one. -/
lemma piece?_of_number {digits after : List Char}
    (h : digits ∈ (Terminal.token .number).language)
    (stops : ∀ c ∈ after.head?, isDigit c = false)
    (point : ∀ d rest, after = '.' :: d :: rest → isDigit d = false) :
    piece? (digits ++ after) = some (⟨some .number, digits⟩, after) := by
  obtain whole | ⟨whole, fraction, hw, hf, rfl⟩ := Terminal.mem_number.1 h
  · obtain ⟨c, cs, digit, _, rfl⟩ := mem_oneOf_mul.1 whole
    obtain ⟨taken, dropped⟩ := takeWhile_append_stop (mem_someOf.1 whole).2 stops
    rw [List.cons_append] at taken dropped ⊢
    rw [piece?_number digit]
    unfold numberPiece
    rw [taken, dropped]
    split
    case h_1 d rest => rw [point d rest rfl, if_neg Bool.false_ne_true]
    case h_2 => rfl
  · obtain ⟨c, cs, digit, _, rfl⟩ := mem_oneOf_mul.1 hw
    obtain ⟨d, ds, digit', each, rfl⟩ := mem_oneOf_mul.1 hf
    obtain ⟨taken, dropped⟩ := takeWhile_append_stop (mem_kstar_oneOf.1 each) stops
    have point := numberPiece_point (mem_someOf.1 hw).2 digit' (ds ++ after)
    rw [taken, dropped] at point
    rw [List.append_assoc]
    exact (piece?_number digit).trans (congrArg some point)

/-- A number starts with a digit. -/
lemma eq_digit_cons {digits : List Char} (h : digits ∈ (Terminal.token .number).language) :
    ∃ c cs, isDigit c = true ∧ digits = c :: cs := by
  obtain whole | ⟨whole, fraction, hw, _, rfl⟩ := Terminal.mem_number.1 h
  · obtain ⟨c, cs, digit, _, rfl⟩ := mem_oneOf_mul.1 whole
    exact ⟨c, cs, digit, rfl⟩
  · obtain ⟨c, cs, digit, _, rfl⟩ := mem_oneOf_mul.1 hw
    exact ⟨c, _, digit, rfl⟩

/-- A blank is a piece of its own if no more of what separates tokens follows. -/
lemma piece?_of_blank {after : List Char} (stops : ∀ c ∈ after.head?, isSeparator c = false) :
    piece? (' ' :: after) = some (⟨none, [' ']⟩, after) := by
  have blank : isSeparator ' ' = true := by decide
  have each : ∀ c ∈ [' '], isSeparator c = true := by simpa using blank
  obtain ⟨taken, dropped⟩ := takeWhile_append_stop each stops
  rw [piece?_separator blank]
  unfold spanPiece
  rw [← List.singleton_append, taken, dropped]

/-- What is written between quotes is the token of a string. -/
lemma encode_mem (text : List Char) :
    Literal.encode text ∈ (Terminal.token .string).language := by
  refine Terminal.mem_string.2 ⟨_, ?_, rfl⟩
  have each (c : Char) : Literal.escapeChar c ∈ stringPart := by
    unfold Literal.escapeChar
    split
    case isTrue special =>
      refine .inr ⟨_, rfl, _, ⟨c, ?_, rfl⟩, rfl⟩
      rcases special with rfl | rfl <;> decide
    case isFalse plain =>
      obtain ⟨slash, quote⟩ := not_or.1 plain
      exact .inl ⟨c, by simp [slash, quote], rfl⟩
  induction text with
  | nil => exact Language.nil_mem_kstar _
  | cons c text ih => exact append_mem_kstar (each c) ih

/-- The first piece is a token at its place, before the others. -/
lemma tokensAt_cons (position : Position) (kind : Kind) (text : List Char) (pieces : List Piece) :
    tokensAt position (⟨some kind, text⟩ :: pieces) =
      ⟨kind, String.ofList text, position⟩ :: tokensAt (position.advance text) pieces := rfl

/-- One piece is one token. -/
lemma tokensAt_singleton (position : Position) (kind : Kind) (text : List Char) :
    tokensAt position [⟨some kind, text⟩] = [⟨kind, String.ofList text, position⟩] := rfl

/-- The tokens among more pieces stand behind the text of those before. -/
lemma tokensAt_append (position : Position) (pieces others : List Piece) :
    tokensAt position (pieces ++ others) = tokensAt position pieces ++
      tokensAt (position.advance (pieces.flatMap (·.text))) others := by
  induction pieces generalizing position with
  | nil => rfl
  | cons piece pieces ih =>
    have advance : (position.advance piece.text).advance (pieces.flatMap (·.text)) =
        position.advance ((piece :: pieces).flatMap (·.text)) := List.foldl_append.symm
    rw [List.cons_append, tokensAt, tokensAt, ih, advance]
    cases piece.kind <;> rfl

end Token

/-- A text reads as a phrase: before anything that may follow an expression it is cut into pieces,
and the tokens among them are derived as the phrase, wherever they stand. -/
structure ReadsAs (ph : Phrase) (text : List Char) (pieces : List Piece) : Prop where
  starts : ∀ c ∈ text.head?, isSeparator c = false
  cut {after rest : List Char} {others : List Piece} : Closes after → Tiling after others rest →
    Tiling (text ++ after) (pieces ++ others) rest
  read (l : Bool) (position : Position) : Derives l ph (tokensAt position pieces)

namespace ReadsAs
variable {e : Expression} {es : List Expression} {text text' : List Char}
  {pieces pieces' : List Piece}

/-- At the end of a script nothing else is cut. -/
lemma tiling {ph : Phrase} (h : ReadsAs ph text pieces) : Tiling text pieces [] := by
  have whole := h.cut closes_nil (Tiling.nil_iff.2 rfl)
  rwa [List.append_nil, List.append_nil] at whole

/-- What stands as an operand stands where less is asked for. -/
lemma mono {rank rank' : Nat} (h : ReadsAs (.operand rank e) text pieces) (le : rank' ≤ rank) :
    ReadsAs (.operand rank' e) text pieces where
  starts := h.starts
  cut := h.cut
  read l position := (h.read l position).mono le

/-- A text that is the token of an expression reads as the expression. -/
lemma token {kind : Kind} (starts : ∀ c ∈ text.head?, isSeparator c = false)
    (found : ∀ after, Closes after → piece? (text ++ after) = some (⟨some kind, text⟩, after))
    (tight : e.rank = Precedence.call.rank)
    (read : ∀ l position, Derives l (.expression e) [⟨kind, String.ofList text, position⟩]) :
    ReadsAs (.operand Precedence.unary.rank e) text [⟨some kind, text⟩] where
  starts := starts
  cut closes tiling := Tiling.cons_iff.2 ⟨_, found _ closes, tiling⟩
  read l position := (read l position).tight tight (by decide)

/-- Digits read as the number. -/
lemma digits (h : text ∈ (Terminal.token .number).language) :
    ReadsAs (.operand Precedence.unary.rank (.number (Number.literal text))) text
      [⟨some .number, text⟩] := by
  refine token ?_ (fun after closes => ?_) rfl fun l position => ?_
  · obtain ⟨c, cs, digit, rfl⟩ := eq_digit_cons h
    rintro _ ⟨⟩
    exact not_isSeparator (.inr digit)
  · refine piece?_of_number h (closes.head (by decide)) ?_
    rintro d rest rfl
    exact closes.point
  · have read : Derives l _ [⟨.number, String.ofList text, position⟩] := .number rfl
    rwa [String.toList_ofList] at read

/-- A text between quotes reads as the string. -/
lemma quote (s : String) :
    ReadsAs (.operand Precedence.unary.rank (.string s)) (quote s).toList
      [⟨some .string, (quote s).toList⟩] := by
  have literal : (ScriptLang.quote s).toList = Literal.encode s.toList := String.toList_ofList
  rw [literal]
  refine token ?_ (fun after _ => piece?_of_string (encode_mem _) after) rfl fun l position => ?_
  · rintro _ ⟨⟩
    decide
  · have read : Derives l _ [⟨.string, String.ofList (Literal.encode s.toList), position⟩] :=
      .string rfl
    rwa [String.toList_ofList, Literal.decode_encode, String.ofList_toList] at read

/-- A word reads as the expression that it is the token of. -/
lemma word {kind : Kind} (h : text ∈ (Terminal.token .name).language)
    (same : wordKind (String.ofList text) = kind) (tight : e.rank = Precedence.call.rank)
    (read : ∀ l position, Derives l (.expression e) [⟨kind, String.ofList text, position⟩]) :
    ReadsAs (.operand Precedence.unary.rank e) text [⟨some kind, text⟩] := by
  subst same
  refine token ?_ (fun after closes => piece?_of_word h (closes.head (by decide))) tight read
  obtain ⟨c, cs, start, _, rfl⟩ := Terminal.mem_name.1 h
  rintro _ ⟨⟩
  exact not_isSeparator (.inl start)

/-- The text of a boolean reads as it. -/
lemma boolean (value : Bool) :
    ReadsAs (.operand Precedence.unary.rank (.boolean value)) (booleanText value).toList
      [⟨some (if value then .trueWord else .falseWord), (booleanText value).toList⟩] := by
  cases value with
  | true =>
    exact word (Terminal.mem_name_of_all rfl rfl) rfl rfl fun _ _ => .trueWord rfl
  | false =>
    exact word (Terminal.mem_name_of_all rfl rfl) rfl rfl fun _ _ => .falseWord rfl

/-- A minus sign before what does not start with one is not the start of a comment. -/
lemma negation (h : ReadsAs (.operand Precedence.unary.rank e) text pieces)
    (ne : text.head? ≠ some '-') :
    ReadsAs (.operand Precedence.unary.rank (.unary .subtract e)) ('-' :: text)
      (⟨some .minus, ['-']⟩ :: pieces) where
  starts := by rintro _ ⟨⟩; decide
  cut {after rest others} closes tiling := by
    refine Tiling.cons_iff.2 ⟨text ++ after, ?_, h.cut closes tiling⟩
    have alone : ∀ c ∈ (text ++ after).head?, c ≠ '-' :=
      head?_append (by rintro _ mem rfl; exact ne mem) (closes.head (by decide))
    rw [List.cons_append, piece?]
    · rfl
    · rintro cs _ e
      rw [e] at alone
      exact alone '-' rfl rfl
  read l position := .bare (Nat.le_refl _) (.unary rfl (h.read l _))

/-- The empty text reads as no elements. -/
lemma noElements : ReadsAs (.elements []) [] [] where
  starts := nofun
  cut _ tiling := tiling
  read _ _ := .noElements

/-- The text of an expression reads as the last of elements. -/
lemma lastElement (h : ReadsAs (.operand 0 e) text pieces) :
    ReadsAs (.elements [e]) text pieces where
  starts := h.starts
  cut := h.cut
  read l position := .lastElement (h.read l position)

/-- The text of a phrase that has tokens is not empty. -/
lemma ne_nil {ph : Phrase} (h : ReadsAs ph text pieces) (proper : ∀ l, ¬ Derives l ph []) :
    text ≠ [] := by
  rintro rfl
  have none : pieces = [] := by
    cases pieces with
    | nil => rfl
    | cons piece pieces =>
      obtain ⟨_, found, _⟩ := Tiling.cons_iff.1 h.tiling
      cases found
  subst none
  exact proper false (h.read false .start)

/-- A comma and a blank stand between the elements of a list. -/
lemma moreElements {e' : Expression} (h : ReadsAs (.operand 0 e) text pieces)
    (h' : ReadsAs (.elements (e' :: es)) text' pieces') :
    ReadsAs (.elements (e :: e' :: es)) (text ++ ',' :: ' ' :: text')
      (pieces ++ ⟨some .comma, [',']⟩ :: ⟨none, [' ']⟩ :: pieces') where
  starts := head?_append h.starts (by rintro _ ⟨⟩; decide)
  cut {after rest others} closes tiling := by
    have ne := h'.ne_nil fun _ derived => by cases derived.elements_eq_nil rfl
    have begins : (text' ++ after).head? = text'.head? := List.head?_append_of_ne_nil _ ne
    have blank := piece?_of_blank (begins ▸ h'.starts)
    have later := Tiling.cons_iff.2 ⟨_, blank, h'.cut closes tiling⟩
    have comma : Tiling (',' :: ' ' :: (text' ++ after)) _ _ := Tiling.cons_iff.2 ⟨_, rfl, later⟩
    have whole := h.cut (closes_cons (by decide) _) comma
    simpa using whole
  read l position := by
    rw [tokensAt_append]
    exact .moreElements (h.read l position) rfl (h'.read l _)

/-- Texts of expressions with commas and blanks between them read as the elements of a list. -/
lemma commaSeparated {texts : List String}
    (each : List.Forall₂ (fun e text => ∃ pieces, ReadsAs (.operand 0 e) text.toList pieces)
      es texts) :
    ∃ pieces, ReadsAs (.elements es) (ScriptLang.commaSeparated texts).toList pieces := by
  induction each with
  | nil => exact ⟨[], .noElements⟩
  | @cons e first es texts reads others ih =>
    obtain ⟨_, reads⟩ := reads
    cases others with
    | nil => exact ⟨_, reads.lastElement⟩
    | @cons e' second es texts =>
      obtain ⟨_, later⟩ := ih
      have text : (ScriptLang.commaSeparated (first :: second :: texts)).toList =
          first.toList ++ ',' :: ' ' :: (ScriptLang.commaSeparated (second :: texts)).toList := by
        simp only [ScriptLang.commaSeparated, String.intercalate_cons_cons, String.toList_append]
        simp
      rw [text]
      exact ⟨_, reads.moreElements later⟩

/-- Brackets around a text are pieces of their own, whatever comes after them. -/
lemma cut_between {ph : Phrase} (opening closing : Char) {first last : Kind}
    {after rest : List Char} {others : List Piece} (h : ReadsAs ph text pieces)
    (opens : ∀ cs, piece? (opening :: cs) = some (⟨some first, [opening]⟩, cs))
    (ends : ∀ cs, piece? (closing :: cs) = some (⟨some last, [closing]⟩, cs))
    (mem : closing ∈ closers) (tiling : Tiling after others rest) :
    Tiling (opening :: (text ++ closing :: after))
      (⟨some first, [opening]⟩ :: (pieces ++ ⟨some last, [closing]⟩ :: others)) rest := by
  have closed : Tiling (closing :: after) _ _ := Tiling.cons_iff.2 ⟨_, ends _, tiling⟩
  exact Tiling.cons_iff.2 ⟨_, opens _, h.cut (closes_cons mem _) closed⟩

/-- Elements between brackets read as the list. -/
lemma list (h : ReadsAs (.elements es) text pieces) :
    ReadsAs (.operand Precedence.unary.rank (.list es)) ('[' :: (text ++ [']']))
      (⟨some .leftBracket, ['[']⟩ :: (pieces ++ [⟨some .rightBracket, [']']⟩])) where
  starts := by rintro _ ⟨⟩; decide
  cut {after rest others} closes tiling := by
    have whole := h.cut_between '[' ']' (fun _ => rfl) (fun _ => rfl) (by decide) tiling
    simpa using whole
  read l position := by
    rw [tokensAt_cons, tokensAt_append]
    exact .bare (Nat.le_succ _) (.list rfl (h.read l _) rfl)

end ReadsAs

/-- A script is read as what the tokens among its pieces are derived as. -/
lemma parse_of_derives {source : String} {pieces : List Piece} {program : Program}
    (tiling : Tiling source.toList pieces [])
    (derived : Derives false (.statements program) (tokensAt .start pieces)) :
    parse source = .ok program := by
  have read := parseTokens_eq_ok_iff.2 (statementsOf_eq_iff.2 derived)
  rw [parse_eq, tokenize_of_cut (cut_eq_iff.2 ⟨tiling, unmatched_nil⟩)]
  dsimp only
  rw [read]

/-- A script that returns a text is read as the return of what the text reads as. -/
lemma parse_return {rank : Nat} {e : Expression} {text : String} {pieces : List Piece}
    (h : ReadsAs (.operand rank e) text.toList pieces) :
    ∃ line, parse ("return " ++ text) = .ok [.mk line (.returns (some e))] := by
  have word : "return".toList ∈ (Terminal.token .name).language :=
    Terminal.mem_name_of_all rfl rfl
  have blank := Tiling.cons_iff.2 ⟨_, piece?_of_blank h.starts, h.tiling⟩
  have whole := Tiling.cons_iff.2 ⟨_, piece?_of_word word (by rintro _ ⟨⟩; rfl), blank⟩
  have source : ("return " ++ text).toList = "return".toList ++ ' ' :: text.toList := by simp
  rw [← source] at whole
  have returned : Derives false (.statement _)
      (⟨.returnWord, "return", .start⟩ :: tokensAt ⟨1, 8⟩ pieces) :=
    .returns rfl ((h.read false _).mono (Nat.zero_le _))
  have derived := Derives.moreStatements returned (by simp) .noStatements
  rw [List.append_nil] at derived
  exact ⟨some 1, parse_of_derives whole derived⟩

/-- A script that is a text is read as the evaluation of what the text reads as. -/
lemma parse_evaluate {rank : Nat} {e : Expression} {text : String} {pieces : List Piece}
    (h : ReadsAs (.operand rank e) text.toList pieces) :
    ∃ line, parse text = .ok [.mk line (.evaluate e)] := by
  have read := (h.read false .start).mono (Nat.zero_le _)
  obtain ⟨first, ts, tokens⟩ := List.exists_cons_of_ne_nil (read.ne_nil rfl)
  rw [tokens] at read
  have derived := Derives.moreStatements (.evaluate read) (by simp) .noStatements
  rw [List.append_nil, ← tokens] at derived
  exact ⟨_, parse_of_derives h.tiling derived⟩

end ScriptLang
