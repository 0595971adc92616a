import ScriptLang.Proofs.Grammar.Writing

/-!
# Programs are read as they were written

The tokens of a written program are accepted, as a program that differs from it in lines at most.
What is written derives what it was written for, phrase by phrase; the rest is up to
`Derives.read`.
-/

namespace ScriptLang
open Rule (statementAt)

namespace Spelling
variable {ts : List Token} {x : Lexeme} {a b : List Lexeme}

/-- Tokens that spell a lexeme and more start with one that spells it. -/
lemma cons (m : Spelling ts (x :: a)) :
    ∃ token us, ts = token :: us ∧ Lexeme.Spells token x ∧ Spelling us a := by
  cases m with
  | cons h m => exact ⟨_, _, rfl, h, m⟩

/-- Tokens that spell a word and more start with a token of its kind. -/
lemma word {kind : Token.Kind} (m : Spelling ts (.word kind :: a)) :
    ∃ token us, ts = token :: us ∧ token.kind = kind ∧ Spelling us a := by
  obtain ⟨token, us, e, h, m⟩ := m.cons
  exact ⟨token, us, e, h.1, m⟩

/-- Tokens that spell a name and more start with that name. -/
lemma name {text : String} (m : Spelling ts (.name text :: a)) :
    ∃ token us, ts = token :: us ∧ token.kind = .name ∧ token.text = text ∧ Spelling us a := by
  obtain ⟨token, us, e, ⟨hk, ht⟩, m⟩ := m.cons
  exact ⟨token, us, e, hk, ht, m⟩

/-- No tokens spell nothing. -/
lemma nil (m : Spelling ts []) : ts = [] := by
  cases m
  rfl

/-- Tokens that spell two parts are those of one and those of the other. -/
lemma append (m : Spelling ts (a ++ b)) :
    ∃ us vs, ts = us ++ vs ∧ Spelling us a ∧ Spelling vs b := by
  induction a generalizing ts with
  | nil => exact ⟨[], ts, rfl, List.Forall₂.nil, m⟩
  | cons x a ih =>
    obtain ⟨token, us, rfl, h, m⟩ := cons m
    obtain ⟨us, vs, rfl, ma, mb⟩ := ih m
    exact ⟨token :: us, vs, rfl, List.Forall₂.cons h ma, mb⟩

/-- Lexemes before a last word. -/
lemma concat {kind : Token.Kind} (m : Spelling ts (a ++ [.word kind])) :
    ∃ us token, ts = us ++ [token] ∧ token.kind = kind ∧ Spelling us a := by
  obtain ⟨us, vs, rfl, ma, m⟩ := m.append
  obtain ⟨token, vs, rfl, hk, m⟩ := m.word
  obtain rfl := m.nil
  exact ⟨us, token, rfl, hk, ma⟩

/-- The first token is of the kind of the first lexeme. -/
lemma head_kind (m : Spelling ts a) : ts.head?.map (·.kind) = a.head?.map (·.kind) := by
  cases m with
  | nil => rfl
  | cons h => exact congrArg some h.1

/-- Tokens that spell names are derived as them. -/
lemma names {written : List String} (m : Spelling ts (Lexeme.names written)) :
    DerivesNames written ts := by
  induction written generalizing ts with
  | nil =>
    obtain rfl := m.nil
    exact .nil
  | cons first others ih =>
    obtain ⟨token, us, rfl, hk, rfl, m'⟩ := m.name
    cases others with
    | nil =>
      obtain rfl := m'.nil
      exact .last hk
    | cons second others =>
      obtain ⟨comma, vs, rfl, hcomma, m'⟩ := m'.word
      exact .cons hk hcomma (ih m')

/-- Tokens that spell parameters are derived as them. -/
lemma parameters {written : List String} (m : Spelling ts (Lexeme.parameters written)) :
    DerivesParameters written ts := by
  obtain ⟨opening, us, rfl, hopening, m⟩ := m.word
  obtain ⟨us, closing, rfl, hclosing, m⟩ := m.concat
  exact .intro hopening m.names hclosing

end Spelling

/-- The tokens can be read as something, but for the lines in it. -/
def Reads {α : Type} (l : Bool) (ph : α → Phrase) (withoutLines : α → α) (a : α) (ts : List Token) :
    Prop :=
  ∃ b, Derives l (ph b) ts ∧ withoutLines b = withoutLines a

namespace Reads
variable {l : Bool} {ts : List Token}

/-- An operand is read back, with parentheses or without. -/
lemma operand {e : Expression} {written : List Lexeme} {rank : Nat}
    (m : Spelling ts (Lexeme.operand rank e written))
    (h : ∀ {us}, Spelling us written → Reads l .expression Expression.withoutLines e us) :
    Reads l (.operand rank) Expression.withoutLines e ts := by
  unfold Lexeme.operand at m
  split at m
  · -- Lines do not change ranks, so what was read stands without parentheses as well.
    obtain ⟨e', h, eq⟩ := h m
    refine ⟨e', .bare ?_ h, eq⟩
    rwa [← e'.rank_withoutLines, eq, e.rank_withoutLines]
  · obtain ⟨opening, us, rfl, hopening, m⟩ := m.word
    obtain ⟨us, closing, rfl, hclosing, m⟩ := m.concat
    obtain ⟨e', h, eq⟩ := h m
    exact ⟨e', .grouped hopening (.bare (Nat.zero_le _) h) hclosing, eq⟩

/-- An expression is read back where no parentheses are asked for. -/
lemma whole {e : Expression} (h : Reads l .expression Expression.withoutLines e ts) :
    Reads l (.operand 0) Expression.withoutLines e ts := by
  obtain ⟨e', h, eq⟩ := h
  exact ⟨e', .bare (Nat.zero_le _) h, eq⟩

/-- A block is read back from between its braces. -/
lemma braced {b : Block} {written : List Lexeme} (m : Spelling ts (Lexeme.braced written))
    (h : ∀ {us}, Spelling us written → Reads l .statements blockWithoutLines b us) :
    Reads l .block blockWithoutLines b ts := by
  obtain ⟨opening, us, rfl, hopening, m⟩ := m.word
  obtain ⟨us, closing, rfl, hclosing, m⟩ := m.concat
  obtain ⟨b', h, eq⟩ := h m
  exact ⟨b', .block hopening h hclosing, eq⟩

end Reads

/-- The sign of an operator of two operands stands for it. -/
lemma Operator.binaryOperator?_sign {operator : Operator} (h : operator ≠ .not) :
    operator.sign.binaryOperator? = some operator := by
  cases operator <;> first | rfl | exact absurd rfl h

/-- The sign of an operator of one operand stands for it. -/
lemma Operator.unaryOperator?_sign {operator : Operator}
    (h : operator = .subtract ∨ operator = .not) :
    operator.sign.unaryOperator? = some operator := by
  obtain rfl | rfl := h <;> rfl

/-- A lone conditional that is read as a statement can be read as an alternative, with another word
at its start. -/
lemma Derives.chain {l s ts} {first token : Token} (h : Derives l (.statements [s]) (first :: ts))
    (hs : s.form.isBranch = true) (hk : token.kind = .elifWord) :
    Reads l .alternative alternativeWithoutLines (some [s]) (token :: ts) := by
  generalize split : first :: ts = us at h
  cases h with
  | moreStatements h _ hnil =>
    cases hnil
    rw [List.append_nil] at split
    subst split
    cases h with
    | branch h =>
      cases h with
      | conditional _ hc hb ha => exact ⟨_, .chained (.conditional hk hc hb ha), rfl⟩
    | _ => cases hs

/-- A statement without lines is its form without lines. -/
lemma Statement.withoutLines_eq (s : Statement) :
    s.withoutLines = .mk none s.form.withoutLines := by
  cases s
  rfl

/-- Lines do not tell what a conditional is. -/
lemma Form.isBranch_withoutLines (form : Form) : form.withoutLines.isBranch = form.isBranch := by
  cases form with
  | returns value => cases value <;> rfl
  | loop body name iterable => cases iterable <;> rfl
  | _ => rfl

/-- What is a lone conditional without lines is one with them. -/
lemma lone_of_withoutLines {b : Block} {s : Statement}
    (h : blockWithoutLines b = blockWithoutLines [s]) (hs : s.form.isBranch = true) :
    ∃ s', b = [s'] ∧ s'.form.isBranch = true := by
  cases b with
  | nil => cases h
  | cons s' b =>
    cases b with
    | nil =>
      refine ⟨s', rfl, ?_⟩
      have eq := (List.cons.inj h).1
      rw [s.withoutLines_eq, s'.withoutLines_eq] at eq
      rw [← s'.form.isBranch_withoutLines, (Statement.mk.inj eq).2]
      rwa [s.form.isBranch_withoutLines]
    | cons => cases (List.cons.inj h).2

/-- A block that goes on a chain is one conditional. -/
lemma Lexeme.lone_of_chains {chain : Statement → Bool} {b : Block} (h : chains chain b = true) :
    ∃ s, b = [s] ∧ s.form.isBranch = true := by
  unfold chains at h
  split at h
  · exact ⟨_, rfl, (Bool.and_eq_true_iff.1 h).1⟩
  · cases h

variable {chain : Statement → Bool}

mutual

/-- An expression is read back from what spells it. -/
lemma Expression.reads (e : Expression) (h : e.WellFormed chain) {l : Bool} {ts : List Token}
    (m : Spelling ts (e.lexemes chain)) : Reads l .expression Expression.withoutLines e ts := by
  cases e with
  | number value =>
    obtain ⟨token, us, rfl, ⟨hk, rfl⟩, m'⟩ := m.cons
    obtain rfl := m'.nil
    exact ⟨_, .number hk, rfl⟩
  | string value =>
    obtain ⟨token, us, rfl, ⟨hk, rfl⟩, m'⟩ := m.cons
    obtain rfl := m'.nil
    exact ⟨_, .string hk, rfl⟩
  | boolean value =>
    obtain ⟨token, us, rfl, hk, m'⟩ := m.word
    obtain rfl := m'.nil
    cases value with
    | true => exact ⟨_, .trueWord hk, rfl⟩
    | false => exact ⟨_, .falseWord hk, rfl⟩
  | identifier text =>
    obtain ⟨token, us, rfl, hk, rfl, m'⟩ := m.name
    obtain rfl := m'.nil
    exact ⟨_, .identifier hk, rfl⟩
  | assign target value =>
    obtain ⟨⟨text, rfl⟩, hv⟩ := h
    obtain ⟨token, us, rfl, hk, rfl, m'⟩ := m.name
    obtain ⟨sign, vs, rfl, hs, m'⟩ := m'.word
    obtain ⟨value', dv, ev⟩ := (value.reads hv (l := l) m').whole
    have target :
        Derives l (.operand Precedence.assignment.rank (.identifier token.text)) [token] :=
      .tight (.identifier hk) rfl (Precedence.rank_le _)
    exact ⟨_, .assign target hs dv, congrArg (Expression.assign _) ev⟩
  | binary left operator right =>
    -- Both sides are spelled with parentheses if they need them to be operands of the sign.
    obtain ⟨hop, hl, hr⟩ := h
    obtain ⟨us, vs, rfl, ml, m⟩ := m.append
    obtain ⟨sign, vs, rfl, hs, mr⟩ := m.word
    obtain ⟨left', dl, el⟩ := Reads.operand (l := l) ml (left.reads hl)
    obtain ⟨right', dr, er⟩ := Reads.operand (l := l) mr (right.reads hr)
    rw [← hs] at dl dr
    refine ⟨_, .binary (by rw [hs]; exact Operator.binaryOperator?_sign hop) dl dr, ?_⟩
    simp only [Expression.withoutLines, el, er]
  | unary operator e =>
    obtain ⟨hop, he⟩ := h
    obtain ⟨sign, us, rfl, hs, m⟩ := m.word
    obtain ⟨e', d, eq⟩ := Reads.operand (l := l) m (e.reads he)
    refine ⟨_, .unary (by rw [hs]; exact Operator.unaryOperator?_sign hop) d, ?_⟩
    simp only [Expression.withoutLines, eq]
  | call callee arguments =>
    obtain ⟨hc, ha⟩ := h
    obtain ⟨us, vs, rfl, mc, m⟩ := m.append
    obtain ⟨opening, vs, rfl, hopening, m⟩ := m.word
    obtain ⟨vs, closing, rfl, hclosing, ma⟩ := m.concat
    obtain ⟨callee', dc, ec⟩ := Reads.operand (l := l) mc (callee.reads hc)
    obtain ⟨arguments', da, ea⟩ := elements_reads arguments ha (l := l) ma
    refine ⟨_, .call dc hopening da hclosing, ?_⟩
    simp only [Expression.withoutLines, ec, ea]
  | list elements =>
    obtain ⟨opening, us, rfl, hopening, m⟩ := m.word
    obtain ⟨us, closing, rfl, hclosing, m⟩ := m.concat
    obtain ⟨elements', d, eq⟩ := elements_reads elements h (l := l) m
    exact ⟨_, .list hopening d hclosing, congrArg Expression.list eq⟩
  | function names body =>
    obtain ⟨first, us, rfl, hfirst, m⟩ := m.word
    obtain ⟨us, vs, rfl, mp, mb⟩ := m.append
    obtain ⟨body', d, eq⟩ := Reads.braced mb (block_reads body h)
    exact ⟨_, .function hfirst mp.parameters d, congrArg (Expression.function _) eq⟩
  | member target text =>
    obtain ⟨us, vs, rfl, mt, m⟩ := m.append
    obtain ⟨dot, vs, rfl, hdot, m⟩ := m.word
    obtain ⟨name, vs, rfl, hname, rfl, m'⟩ := m.name
    obtain rfl := m'.nil
    obtain ⟨target', d, eq⟩ := Reads.operand (l := l) mt (target.reads h)
    exact ⟨_, .member d hdot hname, congrArg (Expression.member · _) eq⟩
  | index target place =>
    obtain ⟨ht, hp⟩ := h
    obtain ⟨us, vs, rfl, mt, m⟩ := m.append
    obtain ⟨opening, vs, rfl, hopening, m⟩ := m.word
    obtain ⟨vs, closing, rfl, hclosing, mp⟩ := m.concat
    obtain ⟨target', dt, et⟩ := Reads.operand (l := l) mt (target.reads ht)
    obtain ⟨place', dp, ep⟩ := (place.reads hp (l := l) mp).whole
    refine ⟨_, .index dt hopening dp hclosing, ?_⟩
    simp only [Expression.withoutLines, et, ep]
  | unknown => cases h

/-- Elements are read back from what spells them. -/
lemma elements_reads (es : List Expression) (h : ElementsWellFormed chain es) {l : Bool}
    {ts : List Token} (m : Spelling ts (elementLexemes chain es)) :
    Reads l .elements elementsWithoutLines es ts := by
  cases es with
  | nil =>
    obtain rfl := m.nil
    exact ⟨_, .noElements, rfl⟩
  | cons e es =>
    obtain ⟨us, vs, rfl, me, mes⟩ := m.append
    obtain ⟨e', d, eq⟩ := (e.reads h.1 (l := l) me).whole
    obtain ⟨es', d, eqs⟩ := more_reads es h.2 d mes
    refine ⟨_, d, ?_⟩
    simp only [elementsWithoutLines, eq, eqs]

/-- Elements behind the first are read back from what spells them. -/
lemma more_reads (es : List Expression) (h : ElementsWellFormed chain es) {l : Bool}
    {e : Expression} {ts us : List Token} (d : Derives l (.operand 0 e) ts)
    (m : Spelling us (moreLexemes chain es)) :
    Reads l (fun es => .elements (e :: es)) elementsWithoutLines es (ts ++ us) := by
  cases es with
  | nil =>
    obtain rfl := m.nil
    rw [List.append_nil]
    exact ⟨[], .lastElement d, rfl⟩
  | cons e₁ es =>
    obtain ⟨comma, us, rfl, hcomma, m⟩ := m.word
    obtain ⟨us, vs, rfl, me, mes⟩ := m.append
    obtain ⟨e', d', eq⟩ := (e₁.reads h.1 (l := l) me).whole
    obtain ⟨es', d', eqs⟩ := more_reads es h.2 d' mes
    refine ⟨_, .moreElements d hcomma d', ?_⟩
    simp only [elementsWithoutLines, eq, eqs]

/-- A statement is read back from what spells it. -/
lemma Statement.reads (s : Statement) {l : Bool} (h : s.WellFormed chain l) {ts : List Token}
    (m : Spelling ts (s.lexemes chain)) : Reads l .statement Statement.withoutLines s ts := by
  cases s with
  | mk line form =>
    obtain ⟨s', d, eq⟩ := form.reads h m
    refine ⟨s', d, ?_⟩
    rw [s'.withoutLines_eq, eq]
    rfl

/-- A form is read back from what spells it. -/
lemma Form.reads (form : Form) {l : Bool} (h : form.WellFormed chain l) {ts : List Token}
    (m : Spelling ts (form.lexemes chain)) :
    ∃ s', Derives l (.statement s') ts ∧ s'.form.withoutLines = form.withoutLines := by
  cases form with
  | declare text value =>
    obtain ⟨first, us, rfl, hfirst, m⟩ := m.word
    obtain ⟨name, us, rfl, hname, rfl, m'⟩ := m.name
    obtain ⟨sign, us, rfl, hsign, m'⟩ := m'.word
    obtain ⟨value', d, eq⟩ := (value.reads h (l := l) m').whole
    exact ⟨_, .declare hfirst hname hsign d, congrArg (Form.declare _) eq⟩
  | define text names body =>
    obtain ⟨first, us, rfl, hfirst, m⟩ := m.word
    obtain ⟨name, us, rfl, hname, rfl, m'⟩ := m.name
    obtain ⟨us, vs, rfl, mp, mb⟩ := m'.append
    obtain ⟨body', d, eq⟩ := Reads.braced mb (block_reads body h)
    exact ⟨_, .define hfirst hname mp.parameters d, congrArg (Form.define _ _) eq⟩
  | branch condition consequent alternative =>
    obtain ⟨hc, hb, ha⟩ := h
    obtain ⟨first, us, rfl, hfirst, m⟩ := m.word
    obtain ⟨us, vs, rfl, mc, m⟩ := m.append
    obtain ⟨vs, ws, rfl, mb, ma⟩ := m.append
    obtain ⟨condition', dc, ec⟩ := Reads.operand (l := l) mc (condition.reads hc)
    obtain ⟨consequent', db, eb⟩ := Reads.braced mb (block_reads consequent hb)
    obtain ⟨alternative', da, ea⟩ := alternative_reads alternative ha ma
    refine ⟨_, .branch (.conditional hfirst (dc.mono (Nat.zero_le _)) db da), ?_⟩
    simp only [statementAt, Statement.form_mk, Form.withoutLines, ec, eb, ea]
  | loop body text iterable =>
    cases text with
    | none =>
      cases iterable with
      | some => cases h
      | none =>
        obtain ⟨first, us, rfl, hfirst, m⟩ := m.word
        obtain ⟨body', d, eq⟩ := Reads.braced m (block_reads body h)
        exact ⟨_, .loop hfirst d, congrArg (Form.loop · none none) eq⟩
    | some text =>
      cases iterable with
      | none => cases h
      | some iterable =>
        obtain ⟨hi, hb⟩ := h
        obtain ⟨first, us, rfl, hfirst, m⟩ := m.word
        obtain ⟨opening, us, rfl, hopening, m⟩ := m.word
        obtain ⟨word, us, rfl, hword, m⟩ := m.word
        obtain ⟨name, us, rfl, hname, rfl, m'⟩ := m.name
        obtain ⟨colon, us, rfl, hcolon, m'⟩ := m'.word
        obtain ⟨us, vs, rfl, mi, m'⟩ := m'.append
        obtain ⟨closing, vs, rfl, hclosing, mb⟩ := m'.word
        obtain ⟨iterable', di, ei⟩ := (iterable.reads hi (l := l) mi).whole
        obtain ⟨body', db, eb⟩ := Reads.braced mb (block_reads body hb)
        refine ⟨_, .loopOver hfirst hopening hword hname hcolon di hclosing db, ?_⟩
        simp only [statementAt, Statement.form_mk, Form.withoutLines, ei, eb]
  | returns value =>
    cases value with
    | none =>
      obtain ⟨first, us, rfl, hfirst, m⟩ := m.word
      obtain rfl := m.nil
      exact ⟨_, .returnsNothing hfirst, rfl⟩
    | some value =>
      obtain ⟨first, us, rfl, hfirst, m⟩ := m.word
      obtain ⟨value', d, eq⟩ := (value.reads h (l := l) m).whole
      exact ⟨_, .returns hfirst d, congrArg (fun e => Form.returns (some e)) eq⟩
  | breakLoop =>
    -- A jump is well formed inside of a loop only, where it may be read.
    obtain rfl : l = true := h
    obtain ⟨first, us, rfl, hfirst, m⟩ := m.word
    obtain rfl := m.nil
    exact ⟨_, .breakLoop hfirst, rfl⟩
  | continueLoop =>
    obtain rfl : l = true := h
    obtain ⟨first, us, rfl, hfirst, m⟩ := m.word
    obtain rfl := m.nil
    exact ⟨_, .continueLoop hfirst, rfl⟩
  | evaluate e =>
    obtain ⟨e', d, eq⟩ := (e.reads h (l := l) m).whole
    obtain ⟨first, us, rfl⟩ := List.exists_cons_of_ne_nil (d.ne_nil rfl)
    exact ⟨_, .evaluate d, congrArg Form.evaluate eq⟩
  | unknown => cases h

/-- A block is read back from what spells it. -/
lemma block_reads (b : List Statement) {l : Bool} (h : BlockWellFormed chain l b) {ts : List Token}
    (m : Spelling ts (blockLexemes chain b)) : Reads l .statements blockWithoutLines b ts := by
  cases b with
  | nil =>
    obtain rfl := m.nil
    exact ⟨_, .noStatements, rfl⟩
  | cons s b =>
    obtain ⟨hs, may, hb⟩ := h
    obtain ⟨us, vs, rfl, ms, mb⟩ := m.append
    obtain ⟨s', ds, es⟩ := s.reads hs ms
    obtain ⟨b', db, eb⟩ := block_reads b hb mb
    refine ⟨s' :: b', .moreStatements ds (fun token ht => ?_) db, ?_⟩
    · -- The next statement is read from the tokens that spell it, and the first of them has the
      -- kind that was asked for.
      have head : (blockLexemes chain b).head?.map (·.kind) = some token.kind := by
        rw [← mb.head_kind, ht]
        rfl
      obtain ⟨next, hn, hk⟩ := Option.map_eq_some_iff.1 head
      have starts : next.kind.startsStatement = true := by
        rw [hk]
        exact db.starts token ht
      rw [s.withoutLines_eq, s'.withoutLines_eq] at es
      rw [← s'.form.mayPrecede_withoutLines, (Statement.mk.inj es).2,
        s.form.mayPrecede_withoutLines, ← hk]
      exact (may next hn).mayPrecede starts
    · simp only [blockWithoutLines, es, eb]

/-- An alternative is read back from what spells it. -/
lemma alternative_reads (alternative : Option (List Statement)) {l : Bool}
    (h : AlternativeWellFormed chain l alternative) {ts : List Token}
    (m : Spelling ts (alternativeLexemes chain alternative)) :
    Reads l .alternative alternativeWithoutLines alternative ts := by
  cases alternative with
  | none =>
    obtain rfl := m.nil
    exact ⟨_, .noAlternative, rfl⟩
  | some b =>
    unfold alternativeLexemes at m
    split at m
    case isTrue chains =>
      -- With `if` for `elif` at its start, the alternative is the block of one statement.
      obtain ⟨word, us, rfl, hword, m⟩ := m.word
      obtain ⟨s, e, hs⟩ := Lexeme.lone_of_chains chains
      have head : blockLexemes chain b = .word .ifWord :: (blockLexemes chain b).tail := by
        subst e
        obtain ⟨line, form⟩ := s
        cases form <;> first | rfl | cases hs
      have whole : Spelling (Token.sample .ifWord :: us) (blockLexemes chain b) := by
        rw [head]
        exact List.Forall₂.cons ⟨rfl, trivial⟩ m
      obtain ⟨b', d, eq⟩ := block_reads b h whole
      rw [e] at eq ⊢
      obtain ⟨s', rfl, hs'⟩ := lone_of_withoutLines eq hs
      obtain ⟨alternative', da, ea⟩ := d.chain hs' hword
      exact ⟨alternative', da, ea.trans (congrArg some eq)⟩
    case isFalse =>
      obtain ⟨word, us, rfl, hword, m⟩ := m.word
      obtain ⟨b', d, eq⟩ := Reads.braced m (block_reads b h)
      exact ⟨_, .otherwise hword d, congrArg some eq⟩

end

/-- A well-formed program can be written, and however its tokens are spelled they are read as that
program, but for its lines. -/
theorem parseTokens_of_spelling {chain : Statement → Bool} {p : Program}
    (h : BlockWellFormed chain false p) :
    (∃ ts, Spelling ts (blockLexemes chain p)) ∧
    ∀ ts, Spelling ts (blockLexemes chain p) →
      ∃ q, parseTokens ts = .ok q ∧ blockWithoutLines q = blockWithoutLines p := by
  refine ⟨block_spellable p h, fun ts m => ?_⟩
  obtain ⟨q, d, eq⟩ := block_reads p h m
  exact ⟨q, parseTokens_eq_ok_iff.2 (statementsOf_eq_iff.2 d), eq⟩

/-- A script with operands and an assignment that need parentheses, and a conditional within an
alternative. -/
def sampleProgram : Program :=
  [.mk none (.declare "x" (.binary (.identifier "x") .subtract
      (.binary (.identifier "x") .subtract (.number (Number.literal ['1']))))),
    .mk none (.branch (.assign (.identifier "x") (.boolean true)) []
      (some [.mk none (.branch (.call (.identifier "x") [.identifier "x"]) [] none)]))]

/-- The tokens of `let x = x - (x - 1) if (x = true) { } elif x(x) { }`. -/
def sampleTokens : List Token :=
  [.letWord, .name, .assign, .name, .minus, .leftParen, .name, .minus].map Token.sample ++
    ⟨.number, "1", .start⟩ :: [.rightParen, .ifWord, .leftParen, .name, .assign, .trueWord,
      .rightParen, .leftBrace, .rightBrace, .elifWord, .name, .leftParen, .name, .rightParen,
      .leftBrace, .rightBrace].map Token.sample

/-- The tokens spell the program and are read as it. -/
theorem parseTokens_sampleTokens :
    BlockWellFormed (fun _ => true) false sampleProgram ∧
      Spelling sampleTokens (blockLexemes (fun _ => true) sampleProgram) ∧
      ∃ q, parseTokens sampleTokens = .ok q ∧
        blockWithoutLines q = blockWithoutLines sampleProgram := by
  have wellFormed : BlockWellFormed (fun _ => true) false sampleProgram := by
    have value : Expression.WellFormed (fun _ => true) (.binary (.identifier "x") .subtract
        (.binary (.identifier "x") .subtract (.number (Number.literal ['1'])))) :=
      ⟨by decide, trivial, by decide, trivial, "1", rfl⟩
    have inner : Form.WellFormed (fun _ => true) false
        (.branch (.call (.identifier "x") [.identifier "x"]) [] none) :=
      ⟨⟨trivial, trivial, trivial⟩, trivial, trivial⟩
    refine ⟨value, ?_, ⟨⟨⟨_, rfl⟩, trivial⟩, trivial, inner, ?_, trivial⟩, ?_, trivial⟩
    · rintro _ ⟨rfl⟩
      exact ⟨by decide, by decide, by decide⟩
    · exact fun _ h => nomatch h
    · exact fun _ h => nomatch h
  have spelling : Spelling sampleTokens (blockLexemes (fun _ => true) sampleProgram) := by
    repeat' first | exact List.Forall₂.nil | refine List.Forall₂.cons ⟨rfl, ?_⟩ ?_
    all_goals first | exact trivial | rfl
  exact ⟨wellFormed, spelling, (parseTokens_of_spelling wellFormed).2 _ spelling⟩

end ScriptLang
