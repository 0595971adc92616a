import ScriptLang.Proofs.Grammar.Writing

/-!
# Programs side by side

Nothing is written between two programs, so the first may run into the second. It does unless its
last statement ends before the first token of the second, and that is all there is to it
(`parseTokens_append_iff`).

That nothing else keeps two programs apart is the harder part. If they are read as their statements
side by side, one would like to conclude that the last statement of the first was read from its own
tokens. The parser settles this if it can stop there. If it cannot, the same statement would have
been read from more tokens than its own, the first of them a parenthesis, a bracket or a minus sign.
But a tree fixes how many tokens of most kinds it is written with (`Derives.stems_eq`), so only
parentheses can have been added, and they would not be balanced.
-/

namespace ScriptLang
open Rule (statementAt)

/-- Whether a token may begin an expression, parentheses apart. -/
def Token.Kind.isStem : Kind → Bool
  | number | string | trueWord | falseWord | name | fnWord | minus | bang | leftBracket => true
  | _ => false

/-- What starts an expression is a stem, unless it is a parenthesis. -/
lemma Token.Kind.isStem_of_startsExpression {kind : Kind} (h : kind.startsExpression = true)
    (ne : kind ≠ .leftParen) : kind.isStem = true := by
  cases kind <;> first | exact absurd rfl ne | rfl | cases h

mutual

/-- How many stems an expression is written with. -/
@[simp]
def Expression.stems : Expression → Nat
  | .number _ | .string _ | .boolean _ | .identifier _ => 1
  | .assign target value => target.stems + value.stems
  | .binary left operator right =>
    left.stems + (right.stems + if operator.sign.isStem then 1 else 0)
  | .unary _ operand => operand.stems + 1
  | .call callee arguments => callee.stems + Expression.allStems arguments
  | .list elements => Expression.allStems elements + 1
  | .function parameters body => parameters.length + Statement.allStems body + 1
  | .member target _ => target.stems + 1
  | .index target place => target.stems + (place.stems + 1)
  | .unknown => 0

/-- How many stems several expressions are written with. -/
@[simp]
def Expression.allStems : List Expression → Nat
  | [] => 0
  | e :: rest => e.stems + Expression.allStems rest

/-- How many stems a statement is written with. -/
@[simp]
def Statement.stems : Statement → Nat
  | .mk _ form => form.stems

/-- How many stems the form of a statement is written with. -/
@[simp]
def Form.stems : Form → Nat
  | .declare _ value => value.stems + 1
  | .define _ parameters body => parameters.length + Statement.allStems body + 2
  | .branch condition consequent none => condition.stems + Statement.allStems consequent
  | .branch condition consequent (some alternative) =>
    condition.stems + (Statement.allStems consequent + Statement.allStems alternative)
  | .loop body _ none => Statement.allStems body
  | .loop body _ (some iterable) => iterable.stems + Statement.allStems body + 1
  | .returns none => 0
  | .returns (some value) => value.stems
  | .breakLoop | .continueLoop | .unknown => 0
  | .evaluate e => e.stems

/-- How many stems a block is written with. -/
@[simp]
def Statement.allStems : List Statement → Nat
  | [] => 0
  | s :: rest => s.stems + Statement.allStems rest

end

/-- How many stems a phrase is written with. -/
@[simp]
def Phrase.stems : Phrase → Nat
  | operand _ e | expression e => e.stems
  | elements es => Expression.allStems es
  | statement s => s.stems
  | conditional word s => s.stems + if word.isStem then 1 else 0
  | alternative none => 0
  | alternative (some b) | block b | statements b => Statement.allStems b

/-- How many stems there are among tokens. -/
def stemsIn (ts : List Token) : Nat := ts.countP (·.kind.isStem)

/-- Without tokens there are no stems. -/
@[simp] lemma stemsIn_nil : stemsIn [] = 0 := rfl

/-- A stem counts one. -/
@[simp] lemma stemsIn_cons (token : Token) (ts : List Token) :
    stemsIn (token :: ts) = stemsIn ts + if token.kind.isStem then 1 else 0 :=
  List.countP_cons

/-- The stems of two parts add up. -/
@[simp] lemma stemsIn_append (ts us : List Token) :
    stemsIn (ts ++ us) = stemsIn ts + stemsIn us :=
  List.countP_append

/-- An operator of one operand is a stem. -/
lemma Token.Kind.isStem_of_unaryOperator? {kind : Kind} {operator : Operator}
    (h : kind.unaryOperator? = some operator) : kind.isStem = true := by
  cases kind <;> first | rfl | cases h

open Token.Kind (isStem isStem_of_unaryOperator? eq_sign)

/-- Each name is a stem. -/
lemma DerivesNames.stems_eq {names ts} (h : DerivesNames names ts) :
    stemsIn ts = names.length := by
  induction h with
  | nil => rfl
  | last hname => simp [hname, isStem]
  | cons hname hcomma _ ih => simp [hname, hcomma, isStem, ih]

/-- Each parameter is a stem. -/
lemma DerivesParameters.stems_eq {names ts} (h : DerivesParameters names ts) :
    stemsIn ts = names.length := by
  cases h with
  | intro hopening h hclosing => simp [hopening, hclosing, isStem, h.stems_eq]

/-- A tree fixes how many stems it is written with. -/
lemma Derives.stems_eq {l ph ts} (h : Derives l ph ts) : stemsIn ts = ph.stems := by
  induction h with
  | bare _ _ ih => exact ih
  | grouped ho _ hc ih => simpa [ho, hc, isStem] using ih
  | number h | string h | trueWord h | falseWord h | identifier h => simp [h, isStem]
  | function hf hp _ ih => simp [hf, isStem, hp.stems_eq, ih]
  | list ho _ hc ih => simp [ho, hc, isStem, ih]
  | unary ho _ ih => simp [isStem_of_unaryOperator? ho, ih]
  | binary ho _ _ ihl ihr => simp [eq_sign ho, ihl, ihr]
  | assign _ ha _ iht ihv => simp [ha, isStem, iht, ihv]
  | call _ ho _ hc iht iha => simp [ho, hc, isStem, iht, iha]
  | member _ hd hn ih => simp [hd, hn, isStem, ih]
  | index _ ho _ hc iht ihp => simp [ho, hc, isStem, iht, ihp]
  | noElements => rfl
  | lastElement _ ih => simpa using ih
  | moreElements _ hc _ ih ihs => simp [hc, isStem, ih, ihs]
  | declare hf hn hs _ ih => simp [hf, hn, hs, isStem, ih, statementAt]
  | define hf hn hp _ ih => simp [hf, hn, isStem, hp.stems_eq, ih, statementAt]
  | branch _ ih => simpa [isStem] using ih
  | @conditional _ _ _ _ alternative _ _ _ _ hf _ _ _ ihc ihb iha =>
    cases alternative with
    | none => simp [hf, ihc, ihb, iha, statementAt]
    | some => simp [hf, ihc, ihb, iha, statementAt]
  | noAlternative => rfl
  | chained _ ih => simpa [isStem] using ih
  | otherwise hw _ ih => simp [hw, isStem, ih]
  | loop hf _ ih => simp [hf, isStem, ih, statementAt]
  | loopOver hf ho hw hn hc _ hcl _ ihi ihb =>
    simp [hf, ho, hw, hn, hc, hcl, isStem, ihi, ihb, statementAt]
  | returns hf _ ih => simp [hf, isStem, ih, statementAt]
  | returnsNothing hf | breakLoop hf | continueLoop hf => simp [hf, isStem, statementAt]
  | evaluate _ ih => exact ih
  | block ho _ hc ih => simpa [ho, hc, isStem] using ih
  | noStatements => rfl
  | moreStatements _ _ _ ih ihs => simp [ih, ihs]

/-- What a token does to the number of parentheses that are open. -/
def Token.Kind.turn : Kind → Int
  | leftParen => 1
  | rightParen => -1
  | _ => 0

/-- How many more parentheses are opened than closed. -/
def excess : List Token → Int
  | [] => 0
  | token :: ts => token.kind.turn + excess ts

/-- Without tokens no parenthesis is open. -/
@[simp] lemma excess_nil : excess [] = 0 := rfl

/-- A parenthesis counts by its turn. -/
@[simp] lemma excess_cons (token : Token) (ts : List Token) :
    excess (token :: ts) = token.kind.turn + excess ts := rfl

/-- The parentheses of two parts add up. -/
@[simp] lemma excess_append (ts us : List Token) : excess (ts ++ us) = excess ts + excess us := by
  induction ts with
  | nil => exact (Int.zero_add _).symm
  | cons token ts ih =>
    rw [List.cons_append, excess_cons, excess_cons, ih, Int.add_assoc]

/-- An operator of one operand is no parenthesis. -/
lemma Token.Kind.turn_of_unaryOperator? {kind : Kind} {operator : Operator}
    (h : kind.unaryOperator? = some operator) : kind.turn = 0 := by
  cases kind <;> first | rfl | cases h

/-- An operator of two operands is no parenthesis. -/
lemma Token.Kind.turn_of_binaryOperator? {kind : Kind} {operator : Operator}
    (h : kind.binaryOperator? = some operator) : kind.turn = 0 := by
  cases kind <;> first | rfl | cases h

/-- How many more parentheses are opened than closed in a phrase. -/
@[simp]
def Phrase.excess : Phrase → Int
  | conditional word _ => word.turn
  | _ => 0

open Token.Kind (turn turn_of_unaryOperator? turn_of_binaryOperator?)

/-- Names leave no parenthesis open. -/
lemma DerivesNames.excess_eq {names ts} (h : DerivesNames names ts) : excess ts = 0 := by
  induction h with
  | nil => rfl
  | last hname => simp [hname, turn]
  | cons hname hcomma _ ih => simp [hname, hcomma, turn, ih]

/-- Parameters leave no parenthesis open. -/
lemma DerivesParameters.excess_eq {names ts} (h : DerivesParameters names ts) :
    excess ts = 0 := by
  cases h with
  | intro hopening h hclosing => simp [hopening, hclosing, turn, h.excess_eq]

/-- Parentheses are balanced. -/
lemma Derives.excess_eq {l ph ts} (h : Derives l ph ts) : excess ts = ph.excess := by
  induction h with
  | bare _ _ ih => exact ih
  | grouped ho _ hc ih => simp [ho, hc, turn, ih]
  | number h | string h | trueWord h | falseWord h | identifier h => simp [h, turn]
  | function hf hp _ ih => simp [hf, turn, hp.excess_eq, ih]
  | list ho _ hc ih => simp [ho, hc, turn, ih]
  | unary ho _ ih => simp [turn_of_unaryOperator? ho, ih]
  | binary ho _ _ ihl ihr => simp [turn_of_binaryOperator? ho, ihl, ihr]
  | assign _ ha _ iht ihv => simp [ha, turn, iht, ihv]
  | call _ ho _ hc iht iha => simp [ho, hc, turn, iht, iha]
  | member _ hd hn ih => simp [hd, hn, turn, ih]
  | index _ ho _ hc iht ihp => simp [ho, hc, turn, iht, ihp]
  | noElements => rfl
  | lastElement _ ih => exact ih
  | moreElements _ hc _ ih ihs => simp [hc, turn, ih, ihs]
  | declare hf hn hs _ ih => simp [hf, hn, hs, turn, ih]
  | define hf hn hp _ ih => simp [hf, hn, turn, hp.excess_eq, ih]
  | branch _ ih => exact ih
  | conditional hf _ _ _ ihc ihb iha => simp [hf, ihc, ihb, iha]
  | noAlternative => rfl
  | chained _ ih => exact ih
  | otherwise hw _ ih => simp [hw, turn, ih]
  | loop hf _ ih => simp [hf, turn, ih]
  | loopOver hf ho hw hn hc _ hcl _ ihi ihb => simp [hf, ho, hw, hn, hc, hcl, turn, ihi, ihb]
  | returns hf _ ih => simp [hf, turn, ih]
  | returnsNothing hf | breakLoop hf | continueLoop hf => simp [hf, turn]
  | evaluate _ ih => exact ih
  | block ho _ hc ih => simp [ho, hc, turn, ih]
  | noStatements => rfl
  | moreStatements _ _ _ ih ihs => simp [ih, ihs]

/-- After some opening parentheses there is a stem. -/
def LeadsToStem : List Token → Prop
  | [] => False
  | token :: ts => if token.kind = .leftParen then LeadsToStem ts else token.kind.isStem = true

/-- More tokens do not change what leads to the stem. -/
lemma LeadsToStem.append {ts : List Token} (h : LeadsToStem ts) (us : List Token) :
    LeadsToStem (ts ++ us) := by
  induction ts with
  | nil => exact h.elim
  | cons token ts ih =>
    rw [List.cons_append]
    unfold LeadsToStem at h ⊢
    split
    case isTrue paren =>
      rw [if_pos paren] at h
      exact ih h
    case isFalse ne =>
      rw [if_neg ne] at h
      exact h

/-- There is nothing but parentheses before the first stem. -/
lemma LeadsToStem.excess_eq {ts us : List Token} (h : LeadsToStem (ts ++ us))
    (none : stemsIn ts = 0) : excess ts = ts.length := by
  induction ts with
  | nil => rfl
  | cons token ts ih =>
    rw [stemsIn_cons] at none
    rw [List.cons_append] at h
    unfold LeadsToStem at h
    split at h
    case isTrue paren =>
      rw [excess_cons, paren, ih h (Nat.eq_zero_of_add_eq_zero_right none), List.length_cons]
      show 1 + (ts.length : Int) = _
      omega
    case isFalse =>
      rw [h] at none
      cases none

/-- A stem leads to itself. -/
lemma LeadsToStem.of_kind {token : Token} {ts : List Token} {kind : Token.Kind}
    (h : token.kind = kind) (hk : kind.isStem = true) : LeadsToStem (token :: ts) := by
  unfold LeadsToStem
  split
  case isTrue paren =>
    rw [← h, paren] at hk
    cases hk
  case isFalse => exact h ▸ hk

/-- The tokens of an expression lead to a stem. -/
def Phrase.Leads (ts : List Token) : Phrase → Prop
  | operand .. | expression _ => LeadsToStem ts
  | _ => True

/-- What is derived as an expression leads to a stem. -/
lemma Derives.leads {l ph ts} (h : Derives l ph ts) : ph.Leads ts := by
  induction h with
  | bare _ _ ih => exact ih
  | grouped ho _ _ ih =>
    show LeadsToStem (_ :: _)
    unfold LeadsToStem
    rw [if_pos ho]
    exact LeadsToStem.append ih _
  | number h | string h | trueWord h | falseWord h | identifier h => exact .of_kind h rfl
  | function h | list h => exact .of_kind h rfl
  | unary h => exact .of_kind rfl (isStem_of_unaryOperator? h)
  | binary _ _ _ ih => exact ih.append _
  | assign _ _ _ ih => exact ih.append _
  | call _ _ _ _ ih => exact ih.append _
  | member _ _ _ ih => exact ih.append _
  | index _ _ _ _ ih => exact ih.append _
  | _ => trivial

/-- Only an expression starts with a parenthesis. -/
lemma Derives.leads_of_statement {l s ts} (h : Derives l (.statement s) ts)
    (paren : ∀ token ∈ ts.head?, token.kind = .leftParen) : LeadsToStem ts := by
  have other {first : Token} {rest : List Token} {kind : Token.Kind} (hf : first.kind = kind)
      (ne : kind ≠ .leftParen) (e : ts = first :: rest) : LeadsToStem ts := by
    have hp : first.kind = .leftParen := paren first (by rw [e]; rfl)
    exact absurd (hf.symm.trans hp) ne
  cases h with
  | evaluate h => exact h.leads
  | declare hf => exact other hf (by decide) rfl
  | define hf => exact other hf (by decide) rfl
  | branch h =>
    cases h with
    | conditional hf => exact other hf (by decide) rfl
  | loop hf => exact other hf (by decide) rfl
  | loopOver hf => exact other hf (by decide) rfl
  | returns hf => exact other hf (by decide) rfl
  | returnsNothing hf => exact other hf (by decide) rfl
  | breakLoop hf => exact other hf (by decide) rfl
  | continueLoop hf => exact other hf (by decide) rfl

/-- Statements that start with a parenthesis lead to a stem. -/
lemma Derives.leads_of_statements {l b ts} (h : Derives l (.statements b) ts) {first : Token}
    (head : first ∈ ts.head?) (paren : first.kind = .leftParen) : LeadsToStem ts := by
  cases h with
  | noStatements => cases head
  | moreStatements hs _ _ =>
    refine (hs.leads_of_statement fun token ht => ?_).append _
    rw [List.head?_append, ht] at head
    cases head
    exact paren

/-- A statement ends before every word that no expression starts with. -/
lemma Form.endsBefore_of_word (form : Form) {kind : Token.Kind}
    (h : kind.startsExpression = false) : form.EndsBefore kind := by
  have word : kind ≠ .leftParen ∧ kind ≠ .leftBracket ∧ kind ≠ .minus := by
    refine ⟨?_, ?_, ?_⟩ <;> rintro rfl <;> cases h
  cases form with
  | declare | evaluate => exact word
  | returns value =>
    cases value with
    | none => exact h
    | some value => exact word
  | define | branch | loop | breakLoop | continueLoop | unknown => trivial

/-- Where a form may precede a token it ends before it. -/
lemma Form.endsBefore_of_mayPrecede {form : Form} {kind : Token.Kind}
    (h : form.mayPrecede kind = true) : form.EndsBefore kind := by
  have stops (h : (!kind.continuesExpression) = true) :
      kind ≠ .leftParen ∧ kind ≠ .leftBracket ∧ kind ≠ .minus := by
    refine ⟨?_, ?_, ?_⟩ <;> rintro rfl <;> cases h
  cases form with
  | declare | evaluate => exact stops h
  | returns value =>
    cases value with
    | none => exact (Bool.not_eq_true' _).mp h
    | some value => exact stops h
  | define | branch | loop | breakLoop | continueLoop | unknown => trivial

/-- No token of a text goes on with a statement before it. -/
def Statement.StopsBefore (s : Statement) (r : List Token) : Prop :=
  ∀ token ∈ r.head?, s.form.mayPrecede token.kind = true ∧ token.kind.startsStatement = true

/-- Every statement stops at the end. -/
lemma Statement.StopsBefore.nil (s : Statement) : s.StopsBefore [] := nofun

/-- A statement that is read from the start of a text, and ends before what follows, is read from
the same tokens in every way to read it so. -/
lemma Derives.rest_unique {s ts ts' r r'} (h : Derives false (.statement s) ts)
    (h' : Derives false (.statement s) ts') (ends : s.StopsBefore r) (ends' : s.StopsBefore r')
    (e : ts ++ r = ts' ++ r') : r = r' := by
  have read {ts r} (h : Derives false (.statement s) ts) (ends : s.StopsBefore r) :
      Rule.parse .statement ⟨ts ++ r, 0⟩ = .ok s ⟨r, 0⟩ := by
    refine h.read (by simp) r (fun token ht => (ends token ht).1) ?_
    exact endsBranches_of_startsStatement fun token ht => .inr (ends token ht).2
  have same := (read h ends).symm.trans (e ▸ read h' ends')
  injection same with _ cursors
  injection cursors

/-- A statement is not read from some tokens and also from more, which statements start with. -/
lemma Derives.extension_eq_nil {s q ts us r} (h : Derives false (.statement s) ts)
    (h' : Derives false (.statement s) (ts ++ us)) (hq : Derives false (.statements q) (us ++ r)) :
    us = [] := by
  by_contra ne
  obtain ⟨first, us, rfl⟩ := List.exists_cons_of_ne_nil ne
  have starts : first.kind.startsStatement = true := hq.starts first rfl
  have noStems : stemsIn (first :: us) = 0 := by
    have eq := h'.stems_eq
    rw [stemsIn_append, h.stems_eq] at eq
    exact Nat.add_eq_left.1 eq
  by_cases begins : first.kind.startsExpression = true
  -- The tokens that were added are parentheses, all of them opening.
  · have paren : first.kind = .leftParen := by
      by_contra ne
      rw [stemsIn_cons, Token.Kind.isStem_of_startsExpression begins ne] at noStems
      cases noStems
    have leads : LeadsToStem (first :: us ++ r) := hq.leads_of_statements rfl paren
    have eq := h'.excess_eq
    rw [excess_append, h.excess_eq, leads.excess_eq noStems] at eq
    simp at eq
    omega
  -- The statement ends before a word, so the parser stops there.
  · have ends : s.StopsBefore (first :: us) := by
      rintro _ ⟨rfl⟩
      have word := s.form.endsBefore_of_word ((Bool.not_eq_true _).mp begins)
      exact ⟨word.mayPrecede starts, starts⟩
    have eq : first :: us = [] :=
      h.rest_unique h' ends (.nil s) (List.append_nil _).symm
    cases eq

/-- No statements have no tokens. -/
lemma Derives.eq_nil_of_statements {l ts} (h : Derives l (.statements []) ts) : ts = [] := by
  cases h
  rfl

/-- Statements have tokens. -/
lemma Derives.cons_of_statements {l s b ts} (h : Derives l (.statements (s :: b)) ts) :
    ∃ first rest, ts = first :: rest := by
  cases h with
  | moreStatements hs _ _ =>
    obtain ⟨first, rest, rfl⟩ := List.exists_cons_of_ne_nil (hs.ne_nil rfl)
    exact ⟨first, _, rfl⟩

/-- Statements go before statements if the last of them does. -/
lemma Derives.append {l p q ts us} (h : Derives l (.statements p) ts)
    (h' : Derives l (.statements q) us)
    (may : ∀ s ∈ p.getLast?, ∀ token ∈ us.head?, s.form.mayPrecede token.kind = true) :
    Derives l (.statements (p ++ q)) (ts ++ us) := by
  induction p generalizing ts with
  | nil =>
    obtain rfl := h.eq_nil_of_statements
    exact h'
  | cons s p ih =>
    cases h with
    | @moreStatements _ _ _ ts vs hs first hp =>
      rw [List.cons_append, List.append_assoc]
      cases p with
      | nil =>
        obtain rfl := hp.eq_nil_of_statements
        exact .moreStatements hs (may s rfl) h'
      | cons t p =>
        have more := ih hp fun s mem => may s (by rwa [List.getLast?_cons_cons])
        obtain ⟨token, vs, rfl⟩ := hp.cons_of_statements
        exact .moreStatements hs first more

/-- If programs side by side are read as their statements side by side, the last statement of the
first ends before the second. -/
lemma Derives.mayPrecede_of_append {p q ts us} (h : Derives false (.statements p) ts)
    (hq : Derives false (.statements q) us)
    (h' : Derives false (.statements (p ++ q)) (ts ++ us)) :
    ∀ s ∈ p.getLast?, ∀ token ∈ us.head?, s.form.mayPrecede token.kind = true := by
  induction p generalizing ts with
  | nil => nofun
  | cons s p ih =>
    cases h with
    | @moreStatements _ _ _ ts vs hs first hp =>
      rw [List.cons_append, List.append_assoc] at h'
      generalize e : ts ++ (vs ++ us) = ws at h'
      cases h' with
      | @moreStatements _ _ _ ts' ws hs' first' hr =>
        cases p with
        | nil =>
          obtain rfl := hp.eq_nil_of_statements
          -- One of the two statements extends the other, and by stems and parentheses it cannot.
          have same : us = ws := by
            rcases List.append_eq_append_iff.1 e with ⟨vs, rfl, rfl⟩ | ⟨vs, rfl, rfl⟩
            · rw [hs.extension_eq_nil hs' hq]
              rfl
            · rw [hs'.extension_eq_nil hs hr]
              rfl
          rintro _ ⟨rfl⟩
          exact same ▸ first'
        | cons t p =>
          obtain ⟨token, vs, rfl⟩ := hp.cons_of_statements
          have stops : s.StopsBefore (token :: vs ++ us) := fun other mem =>
            ⟨first other mem, hp.starts other mem⟩
          have stops' : s.StopsBefore ws := fun other mem =>
            ⟨first' other mem, hr.starts other mem⟩
          obtain rfl := hs.rest_unique hs' stops stops' e
          rw [List.getLast?_cons_cons]
          exact ih hp hr

/-- Two programs side by side are read as their statements side by side exactly if one of them is
empty or the last statement of the first ends before the first token of the second. A declaration of
a variable, a return of a value and an expression do unless that token is an opening parenthesis or
bracket or a minus sign, a return without a value does if no expression begins with that token, and
all other statements do. -/
theorem parseTokens_append_iff {ts us : List Token} {p q : Program} (h : parseTokens ts = .ok p)
    (h' : parseTokens us = .ok q) :
    parseTokens (ts ++ us) = .ok (p ++ q) ↔
      p = [] ∨ q = [] ∨ ∀ s ∈ p.getLast?, ∀ token ∈ us.head?, s.form.EndsBefore token.kind := by
  have hp : Derives false (.statements p) ts := statementsOf_eq_iff.1 (parseTokens_eq_ok_iff.1 h)
  have hq : Derives false (.statements q) us := statementsOf_eq_iff.1 (parseTokens_eq_ok_iff.1 h')
  rw [parseTokens_eq_ok_iff, statementsOf_eq_iff]
  constructor
  · refine fun both => .inr (.inr fun s mem token first => ?_)
    exact Form.endsBefore_of_mayPrecede (hp.mayPrecede_of_append hq both s mem token first)
  · intro ends
    refine hp.append hq fun s mem token first => ?_
    rcases ends with rfl | rfl | ends
    · cases mem
    · obtain rfl := hq.eq_nil_of_statements
      cases first
    · exact (ends s mem token first).mayPrecede (hq.starts token first)

/-- A program of one name. -/
def loneName : Program := [statementAt (.sample .name) (.evaluate (.identifier "x"))]

/-- The negation of a name. -/
def negatedName : Program :=
  [statementAt (.sample .minus) (.evaluate (.unary .subtract (.identifier "x")))]

/-- Two names in a row are read apart, and a name before a negated one is not. -/
theorem parseTokens_loneName_append :
    parseTokens [.sample .name] = .ok loneName ∧
      parseTokens [.sample .minus, .sample .name] = .ok negatedName ∧
      parseTokens ([.sample .name] ++ [.sample .name]) = .ok (loneName ++ loneName) ∧
      parseTokens ([.sample .name] ++ [.sample .minus, .sample .name]) ≠
        .ok (loneName ++ negatedName) := by
  have name : parseTokens [.sample .name] = .ok loneName := rfl
  have minus : parseTokens [.sample .minus, .sample .name] = .ok negatedName := rfl
  refine ⟨name, minus, (parseTokens_append_iff name name).2 (.inr (.inr ?_)), fun both => ?_⟩
  · rintro _ ⟨⟩ _ ⟨⟩
    exact ⟨nofun, nofun, nofun⟩
  · obtain empty | empty | ends := (parseTokens_append_iff name minus).1 both
    · cases empty
    · cases empty
    · exact (ends _ rfl _ rfl).2.2 rfl

end ScriptLang
