import ScriptLang.Proofs.Value.Reading
import ScriptLang.Proofs.Value.Literal

/-!
# Texts of expressions read back

The text of an expression leaves out most parentheses: only operations of two operands have them.
So it reads back as the expression where nothing else would be needed (`Expression.Readable`), that
is, where an assignment stands only as a whole, a sign before no assignment and before no sign that
would make a comment with it, and a call or an access after nothing that begins with a sign. The
text of such an expression is a script of one statement (`expression_text_reads_back`).
-/

namespace ScriptLang
open Token

/-- The places of an expression in the text of another: alone or between brackets, commas or
parentheses, beside an operator, or before a call or an access. -/
inductive Place where
  | whole | operand | target

/-- How tightly an expression has to bind at a place. -/
def Place.rank : Place → Nat
  | whole => Precedence.lowest.rank
  | operand => Precedence.unary.rank
  | target => Precedence.call.rank

/-- A word that is a name and no keyword. -/
def IsName (name : String) : Prop :=
  name.toList ∈ (Terminal.token .name).language ∧ wordKind name = .name

/-- The text of a number is a number, and reads as it. -/
def Number.IsWritten (x : Float) : Prop :=
  (text x).toList ∈ (Terminal.token .number).language ∧ literal (text x).toList = x

/-- The expressions whose text reads back at a place. -/
inductive Expression.Readable : Place → Expression → Prop where
  | whole {e} : Readable .operand e → Readable .whole e
  | assign {name value} : IsName name → Readable .whole value →
    Readable .whole (.assign (.identifier name) value)
  | operand {e} : Readable .target e → Readable .operand e
  | negation {e} : Readable .operand e → (∀ e', e ≠ .unary .subtract e') →
    Readable .operand (.unary .subtract e)
  | not {e} : Readable .operand e → Readable .operand (.unary .not e)
  | number {x} : Number.IsWritten x → Readable .target (.number x)
  | string (text) : Readable .target (.string text)
  | boolean (value) : Readable .target (.boolean value)
  | identifier {name} : IsName name → Readable .target (.identifier name)
  | list {elements} : (∀ e ∈ elements, Readable .whole e) → Readable .target (.list elements)
  | binary {left operator right} : operator ≠ .not → Readable .operand left →
    Readable .operand right → Readable .target (.binary left operator right)
  | call {callee arguments} : Readable .target callee → (∀ e ∈ arguments, Readable .whole e) →
    Readable .target (.call callee arguments)
  | member {target name} : Readable .target target → IsName name →
    Readable .target (.member target name)
  | index {target place} : Readable .target target → Readable .whole place →
    Readable .target (.index target place)

/-- An expression stands wherever its operator binds tightly enough, with or without parentheses. -/
lemma Derives.raise {l rank rank' e ts} (h : Derives l (.operand rank e) ts)
    (le : rank' ≤ e.rank) : Derives l (.operand rank' e) ts := by
  cases h with
  | bare _ derived => exact .bare le derived
  | grouped opening derived closing => exact .grouped opening derived closing

namespace ReadsAs
variable {e e' : Expression} {es : List Expression} {text text' : List Char}
  {pieces pieces' : List Piece}

/-- An expression stands wherever its operator binds tightly enough. -/
lemma raise {rank rank' : Nat} (h : ReadsAs (.operand rank e) text pieces) (le : rank' ≤ e.rank) :
    ReadsAs (.operand rank' e) text pieces where
  starts := h.starts
  cut := h.cut
  read l position := (h.read l position).raise le

/-- A name reads as itself. -/
lemma identifier {name : String} (h : IsName name) :
    ReadsAs (.operand Precedence.call.rank (.identifier name)) name.toList
      [⟨some .name, name.toList⟩] := by
  have same : wordKind (String.ofList name.toList) = .name := by
    rw [String.ofList_toList]
    exact h.2
  refine (word h.1 same rfl fun l position => ?_).raise (Nat.le_refl _)
  have read : Derives l _ [⟨.name, String.ofList name.toList, position⟩] := .identifier rfl
  rwa [String.ofList_toList] at read ⊢

/-- An exclamation mark before what does not start with an equals sign is no other operator. -/
lemma complement (h : ReadsAs (.operand Precedence.unary.rank e) text pieces)
    (ne : text.head? ≠ some '=') :
    ReadsAs (.operand Precedence.unary.rank (.unary .not e)) ('!' :: text)
      (⟨some .bang, ['!']⟩ :: pieces) where
  starts := by rintro _ ⟨⟩; decide
  cut {after rest others} closes tiling := by
    refine Tiling.cons_iff.2 ⟨text ++ after, ?_, h.cut closes tiling⟩
    have alone : ∀ c ∈ (text ++ after).head?, c ≠ '=' :=
      head?_append (by rintro _ mem rfl; exact ne mem) (closes.head (by simp [closers]))
    show (symbol? ('!' :: (text ++ after))).map _ = _
    rw [symbol?]
    · rfl
    · rintro cs e
      rw [e] at alone
      exact alone '=' rfl rfl
  read l position := .bare (Nat.le_refl _) (.unary rfl (h.read l _))

/-- An operator stands between its operands with a blank on each side. -/
lemma joined {ph ph' ph'' : Phrase} (symbol : List Char) (kind : Kind)
    (h : ReadsAs ph text pieces) (h' : ReadsAs ph' text' pieces')
    (proper : ∀ l, ¬ Derives l ph []) (proper' : ∀ l, ¬ Derives l ph' [])
    (starts : ∀ cs, ∀ c ∈ (symbol ++ cs).head?, isSeparator c = false)
    (alone : ∀ cs, piece? (symbol ++ ' ' :: cs) = some (⟨some kind, symbol⟩, ' ' :: cs))
    (read : ∀ {l ts us} {sign : Token}, sign.kind = kind → Derives l ph ts → Derives l ph' us →
      Derives l ph'' (ts ++ sign :: us)) :
    ReadsAs ph'' (text ++ ' ' :: (symbol ++ ' ' :: text'))
      (pieces ++ ⟨none, [' ']⟩ :: ⟨some kind, symbol⟩ :: ⟨none, [' ']⟩ :: pieces') where
  starts := by
    rw [List.head?_append_of_ne_nil _ (h.ne_nil proper)]
    exact h.starts
  cut {after rest others} closes tiling := by
    have begins : (text' ++ after).head? = text'.head? :=
      List.head?_append_of_ne_nil _ (h'.ne_nil proper')
    have second := Tiling.cons_iff.2 ⟨_, piece?_of_blank (begins ▸ h'.starts), h'.cut closes tiling⟩
    have operator := Tiling.cons_iff.2 ⟨_, alone _, second⟩
    have first := Tiling.cons_iff.2 ⟨_, piece?_of_blank (starts _), operator⟩
    have whole := h.cut (closes_cons (by decide) _) first
    simpa using whole
  read l position := by
    rw [tokensAt_append]
    exact read rfl (h.read l _) (h'.read l _)

/-- An expression between parentheses stands wherever an expression may. -/
lemma grouped {rank : Nat} (h : ReadsAs (.operand 0 e) text pieces) :
    ReadsAs (.operand rank e) ('(' :: (text ++ [')']))
      (⟨some .leftParen, ['(']⟩ :: (pieces ++ [⟨some .rightParen, [')']⟩])) where
  starts := by rintro _ ⟨⟩; decide
  cut {after rest others} closes tiling := by
    have whole := h.cut_between '(' ')' (fun _ => rfl) (fun _ => rfl) (by decide) tiling
    simpa using whole
  read l position := by
    rw [tokensAt_cons, tokensAt_append]
    exact .grouped rfl (h.read l _) rfl

/-- Operands with an operator between them read as the operation. -/
lemma binary {operator : Operator} (ne : operator ≠ .not)
    (h : ReadsAs (.operand Precedence.unary.rank e) text pieces)
    (h' : ReadsAs (.operand Precedence.unary.rank e') text' pieces') :
    ReadsAs (.operand 0 (.binary e operator e'))
      (text ++ ' ' :: (operator.symbol.toList ++ ' ' :: text'))
      (pieces ++ ⟨none, [' ']⟩ :: ⟨some operator.sign, operator.symbol.toList⟩ ::
        ⟨none, [' ']⟩ :: pieces') := by
  have found : operator.sign.binaryOperator? = some operator := by
    cases operator <;> first | rfl | contradiction
  obtain ⟨_, lt⟩ := Token.Kind.rank_of_binaryOperator? found
  refine h.joined _ _ h' (fun _ => (·.ne_nil rfl rfl)) (fun _ => (·.ne_nil rfl rfl)) ?_ ?_ ?_
  · cases operator <;> rintro _ _ ⟨⟩ <;> decide
  · cases operator <;> exact fun _ => rfl
  · intro l ts us sign kind left right
    refine .bare (Nat.zero_le _) (.binary (kind ▸ found) (left.mono ?_) (right.mono ?_))
    · exact kind ▸ lt.le
    · exact kind ▸ lt

/-- A name before an equals sign and a value reads as the assignment. -/
lemma assign {name : String} (h : IsName name) (h' : ReadsAs (.operand 0 e) text pieces) :
    ReadsAs (.operand 0 (.assign (.identifier name) e)) (name.toList ++ ' ' :: '=' :: ' ' :: text)
      (⟨some .name, name.toList⟩ :: ⟨none, [' ']⟩ :: ⟨some .assign, ['=']⟩ ::
        ⟨none, [' ']⟩ :: pieces) := by
  refine (identifier h).joined ['='] .assign h' (fun _ => (·.ne_nil rfl rfl))
    (fun _ => (·.ne_nil rfl rfl)) ?_ (fun _ => rfl) ?_
  · rintro _ _ ⟨⟩
    decide
  · intro l ts us sign kind target value
    exact .bare (Nat.zero_le _) (.assign (target.mono (by decide)) kind value)

/-- What goes on behind an expression starts as the expression does. -/
lemma starts_append {rank : Nat} (h : ReadsAs (.operand rank e) text pieces) (rest : List Char) :
    ∀ c ∈ (text ++ rest).head?, isSeparator c = false := by
  rw [List.head?_append_of_ne_nil _ (h.ne_nil fun _ => (·.ne_nil rfl rfl))]
  exact h.starts

/-- An expression goes on with something in brackets. -/
lemma bracketed {ph : Phrase} (opening closing : Char) {first last : Kind}
    (h : ReadsAs (.operand Precedence.call.rank e) text pieces) (h' : ReadsAs ph text' pieces')
    (opens : ∀ cs, piece? (opening :: cs) = some (⟨some first, [opening]⟩, cs))
    (ends : ∀ cs, piece? (closing :: cs) = some (⟨some last, [closing]⟩, cs))
    (mem : opening ∈ closers ∧ closing ∈ closers) (tight : e'.rank = Precedence.call.rank)
    (read : ∀ {l ts us} {opening closing : Token}, opening.kind = first → closing.kind = last →
      Derives l (.operand Precedence.call.rank e) ts → Derives l ph us →
      Derives l (.expression e') (ts ++ opening :: (us ++ [closing]))) :
    ReadsAs (.operand Precedence.call.rank e') (text ++ opening :: (text' ++ [closing]))
      (pieces ++ ⟨some first, [opening]⟩ :: (pieces' ++ [⟨some last, [closing]⟩])) where
  starts := h.starts_append _
  cut {after rest others} closes tiling := by
    have inner := h'.cut_between opening closing opens ends mem.2 tiling
    have whole := h.cut (closes_cons mem.1 _) inner
    simpa using whole
  read l position := by
    rw [tokensAt_append, tokensAt_cons, tokensAt_append]
    exact (read rfl rfl (h.read l _) (h'.read l _)).tight tight (Nat.le_refl _)

/-- A callee before arguments between parentheses reads as the call. -/
lemma call (h : ReadsAs (.operand Precedence.call.rank e) text pieces)
    (h' : ReadsAs (.elements es) text' pieces') :
    ReadsAs (.operand Precedence.call.rank (.call e es)) (text ++ '(' :: (text' ++ [')']))
      (pieces ++ ⟨some .leftParen, ['(']⟩ :: (pieces' ++ [⟨some .rightParen, [')']⟩])) :=
  h.bracketed '(' ')' h' (fun _ => rfl) (fun _ => rfl) (by decide) rfl
    fun opening closing callee arguments => .call callee opening arguments closing

/-- A target before an index between brackets reads as the access. -/
lemma index (h : ReadsAs (.operand Precedence.call.rank e) text pieces)
    (h' : ReadsAs (.operand 0 e') text' pieces') :
    ReadsAs (.operand Precedence.call.rank (.index e e')) (text ++ '[' :: (text' ++ [']']))
      (pieces ++ ⟨some .leftBracket, ['[']⟩ :: (pieces' ++ [⟨some .rightBracket, [']']⟩])) :=
  h.bracketed '[' ']' h' (fun _ => rfl) (fun _ => rfl) (by decide) rfl
    fun opening closing target place => .index target opening place closing

/-- A target before a point and a name reads as the access. -/
lemma member {name : String} (h : ReadsAs (.operand Precedence.call.rank e) text pieces)
    (h' : IsName name) :
    ReadsAs (.operand Precedence.call.rank (.member e name)) (text ++ '.' :: name.toList)
      (pieces ++ [⟨some .dot, ['.']⟩, ⟨some .name, name.toList⟩]) where
  starts := h.starts_append _
  cut {after rest others} closes tiling := by
    have named := (identifier h').cut closes tiling
    have point : Tiling ('.' :: (name.toList ++ after)) _ _ := Tiling.cons_iff.2 ⟨_, rfl, named⟩
    obtain ⟨c, cs, start, _, e⟩ := Terminal.mem_name.1 h'.1
    have closes' : Closes ('.' :: (name.toList ++ after)) := e ▸ closes_point start _
    have whole := h.cut closes' point
    simpa using whole
  read l position := by
    have read (dot name' : Position) : Derives l _ (tokensAt position pieces ++
        [⟨.dot, ".", dot⟩, ⟨.name, name, name'⟩]) := .member (h.read l _) rfl rfl
    rw [tokensAt_append, tokensAt_cons, tokensAt_singleton, String.ofList_toList]
    exact .bare (Nat.le_refl _) (read _ _)

end ReadsAs

namespace Expression

/-- What holds of each expression and its text holds of all. -/
lemma forall₂_texts {p : Expression → String → Prop} {es : List Expression}
    (each : ∀ e ∈ es, p e e.text) : List.Forall₂ p es (texts es) := by
  induction es with
  | nil => exact .nil
  | cons e es ih =>
    obtain ⟨first, each⟩ := List.forall_mem_cons.1 each
    exact .cons first (ih each)

/-- A text starts with a character that no operator starts with, and no part of one either. -/
def Opens (text : String) : Prop := ∃ c cs, text.toList = c :: cs ∧ c ≠ '-' ∧ c ≠ '='

/-- A longer text starts as a text does. -/
lemma Opens.append {text : String} (h : Opens text) (rest : String) : Opens (text ++ rest) := by
  obtain ⟨c, cs, e, ne⟩ := h
  exact ⟨c, cs ++ rest.toList, by rw [String.toList_append, e, List.cons_append], ne⟩

namespace Readable

/-- The text of what may be called or accessed starts with no operator. -/
lemma opens {place : Place} {e : Expression} (h : e.Readable place) (target : place = .target) :
    Opens e.text := by
  induction h with
  | whole | assign | operand | negation | not => cases target
  | number h =>
    obtain ⟨c, cs, digit, e⟩ := eq_digit_cons h.1
    refine ⟨c, cs, e, ?_, ?_⟩ <;> rintro rfl <;> cases digit
  | string s => exact ⟨'\x22', _, String.toList_ofList, by decide, by decide⟩
  | boolean value =>
    cases value with
    | true => exact ⟨'t', _, rfl, by decide, by decide⟩
    | false => exact ⟨'f', _, rfl, by decide, by decide⟩
  | identifier name =>
    obtain ⟨c, cs, start, _, e⟩ := Terminal.mem_name.1 name.1
    refine ⟨c, cs, e, ?_, ?_⟩ <;> rintro rfl <;> cases start
  | list => exact ⟨'[', _, by simp [text]; rfl, by decide, by decide⟩
  | binary => exact ⟨'(', _, by simp [text]; rfl, by decide, by decide⟩
  | call _ _ ih => exact (((ih rfl).append _).append _).append _
  | member _ _ ih => exact ((ih rfl).append _).append _
  | index _ _ ih => exact (((ih rfl).append _).append _).append _

/-- The text of an operand does not start with an equals sign, and with a minus sign only if it is
a negation. -/
lemma head?_text {e : Expression} (h : e.Readable .operand) : e.text.toList.head? ≠ some '=' ∧
    ((∀ e', e ≠ .unary .subtract e') → e.text.toList.head? ≠ some '-') := by
  cases h with
  | operand h =>
    obtain ⟨c, cs, e, minus, equals⟩ := h.opens rfl
    rw [e]
    exact ⟨by simpa using equals, fun _ => by simpa using minus⟩
  | negation => exact ⟨by simp [text, Operator.symbol], fun other => absurd rfl (other _)⟩
  | not => simp [text, Operator.symbol]

/-- The text of an expression reads as the expression. -/
lemma readsAs {place : Place} {e : Expression} (h : e.Readable place) :
    ∃ pieces, ReadsAs (.operand place.rank e) e.text.toList pieces := by
  induction h with
  | whole _ ih =>
    obtain ⟨_, reads⟩ := ih
    exact ⟨_, reads.mono (Nat.zero_le _)⟩
  | @assign name value named _ ih =>
    obtain ⟨_, reads⟩ := ih
    have shown : (Expression.assign (.identifier name) value).text.toList =
        name.toList ++ ' ' :: '=' :: ' ' :: value.text.toList := by
      simp [text, target?]
    exact ⟨_, shown ▸ reads.assign named⟩
  | operand _ ih =>
    obtain ⟨_, reads⟩ := ih
    exact ⟨_, reads.mono (by decide)⟩
  | @negation e h other ih =>
    -- Behind a minus sign another one would make a comment of the rest.
    obtain ⟨_, reads⟩ := ih
    have shown : (Expression.unary .subtract e).text.toList = '-' :: e.text.toList := by
      simp [text, Operator.symbol]
    exact ⟨_, shown ▸ reads.negation (h.head?_text.2 other)⟩
  | @not e h ih =>
    obtain ⟨_, reads⟩ := ih
    have shown : (Expression.unary .not e).text.toList = '!' :: e.text.toList := by
      simp [text, Operator.symbol]
    exact ⟨_, shown ▸ reads.complement h.head?_text.1⟩
  | @number x h =>
    have reads := ReadsAs.digits h.1
    rw [h.2] at reads
    exact ⟨_, reads.raise (Nat.le_refl _)⟩
  | string s => exact ⟨_, (ReadsAs.quote s).raise (Nat.le_refl _)⟩
  | boolean value => exact ⟨_, (ReadsAs.boolean value).raise (Nat.le_refl _)⟩
  | identifier named => exact ⟨_, .identifier named⟩
  | @list elements _ ih =>
    obtain ⟨_, reads⟩ := ReadsAs.commaSeparated (forall₂_texts ih)
    have shown : (Expression.list elements).text.toList =
        '[' :: ((commaSeparated (texts elements)).toList ++ [']']) := by
      simp [text]
    exact ⟨_, shown ▸ reads.list.raise (Nat.le_refl _)⟩
  | @binary left operator right ne _ _ ih ih' =>
    -- Every operation is written in parentheses, so it fits wherever an operand does.
    obtain ⟨_, reads⟩ := ih
    obtain ⟨_, reads'⟩ := ih'
    have shown : (Expression.binary left operator right).text.toList = '(' :: ((left.text.toList ++
        ' ' :: (operator.symbol.toList ++ ' ' :: right.text.toList)) ++ [')']) := by
      simp [text]
    exact ⟨_, shown ▸ (reads.binary ne reads').grouped⟩
  | @call callee arguments _ _ ih ih' =>
    obtain ⟨_, reads⟩ := ih
    obtain ⟨_, reads'⟩ := ReadsAs.commaSeparated (forall₂_texts ih')
    have shown : (Expression.call callee arguments).text.toList = callee.text.toList ++
        '(' :: ((commaSeparated (texts arguments)).toList ++ [')']) := by
      simp [text]
    exact ⟨_, shown ▸ reads.call reads'⟩
  | @member target name _ named ih =>
    obtain ⟨_, reads⟩ := ih
    have shown : (Expression.member target name).text.toList =
        target.text.toList ++ '.' :: name.toList := by
      simp [text]
    exact ⟨_, shown ▸ reads.member named⟩
  | @index target place _ _ ih ih' =>
    obtain ⟨_, reads⟩ := ih
    obtain ⟨_, reads'⟩ := ih'
    have shown : (Expression.index target place).text.toList =
        target.text.toList ++ '[' :: (place.text.toList ++ [']']) := by
      simp [text]
    exact ⟨_, shown ▸ reads.index reads'⟩

end Readable

end Expression

/-- Texts of expressions read back: the text of a readable expression is a script of one statement,
which evaluates the expression. So no two of them have the same text. -/
theorem expression_text_reads_back {e : Expression} (readable : e.Readable .whole) :
    (∃ line, parse e.text = .ok [.mk line (.evaluate e)]) ∧
      ∀ e' : Expression, e'.Readable .whole → e'.text = e.text → e' = e := by
  obtain ⟨_, reads⟩ := readable.readsAs
  obtain ⟨line, parsed⟩ := parse_evaluate reads
  refine ⟨⟨line, parsed⟩, fun e' readable' same => ?_⟩
  obtain ⟨_, reads'⟩ := readable'.readsAs
  obtain ⟨line', parsed'⟩ := parse_evaluate reads'
  rw [same, parsed] at parsed'
  cases parsed'
  rfl

/-- An assignment of a negation, with a call, a member, an index and an operation of two operands.
-/
def sampleExpression : Expression :=
  .assign (.identifier "total") <| .unary .subtract <| .unary .not <|
    .index (.member (.call (.identifier "f") [.string "a \"b\"", .list [.boolean true]]) "rows")
      (.binary (.number 1.5) .add (.unary .subtract (.identifier "x")))

/-- The expression is readable. -/
lemma sampleExpression_readable : sampleExpression.Readable .whole := by
  have named : IsName "total" ∧ IsName "f" ∧ IsName "rows" ∧ IsName "x" :=
    ⟨⟨Terminal.mem_name_of_all rfl rfl, rfl⟩, ⟨Terminal.mem_name_of_all rfl rfl, rfl⟩,
      ⟨Terminal.mem_name_of_all rfl rfl, rfl⟩, ⟨Terminal.mem_name_of_all rfl rfl, rfl⟩⟩
  obtain ⟨total, f, rows, x⟩ := named
  have written : Number.IsWritten 1.5 := by
    have shown : (Number.text 1.5).toList = ['1'] ++ '.' :: ['5'] := by decide +kernel
    refine ⟨?_, by decide +kernel⟩
    rw [shown]
    refine Terminal.mem_number.2 (.inr ⟨['1'], ['5'], ?_, ?_, rfl⟩)
    · exact mem_someOf.2 ⟨List.cons_ne_nil _ _, List.all_eq_true.1 rfl⟩
    · exact mem_someOf.2 ⟨List.cons_ne_nil _ _, List.all_eq_true.1 rfl⟩
  have arguments : ∀ e ∈ [Expression.string "a \"b\"", .list [.boolean true]],
      e.Readable .whole := by
    simp only [List.forall_mem_cons]
    refine ⟨.whole (.operand (.string _)), .whole (.operand (.list ?_)), nofun⟩
    simp only [List.forall_mem_cons]
    exact ⟨.whole (.operand (.boolean _)), nofun⟩
  have called := (Expression.Readable.identifier f).call arguments
  have place := Expression.Readable.binary (by decide : Operator.add ≠ .not)
    (.operand (.number written)) (.negation (.operand (.identifier x)) nofun)
  have accessed := (called.member rows).index (.whole (.operand place))
  exact .assign total (.whole (.negation (.not (.operand accessed)) nofun))

/-- The text of the expression reads back. -/
theorem sampleExpression_reads_back : sampleExpression.Readable .whole ∧
    ∃ line, parse sampleExpression.text = .ok [.mk line (.evaluate sampleExpression)] :=
  ⟨sampleExpression_readable, (expression_text_reads_back sampleExpression_readable).1⟩

end ScriptLang
