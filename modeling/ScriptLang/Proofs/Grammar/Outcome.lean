import ScriptLang.Proofs.Grammar.Derivation
import ScriptLang.Proofs.Grammar.Progress

/-!
# Outcomes

A calculus for what a parser does at a cursor. `Outcome p c done broken` covers both ends of a run:
`done` speaks of the result, of the tokens that were read and of those left, `broken` of the tokens
that were read before the one at which the run failed and of the rest from that one on. One lemma
for each part that the rules are made of says what it leads to, so that the outcome of a rule is
found by walking once through its definition.
-/

namespace ScriptLang.Parser

/-- A failure at the end of the tokens says that a token is missing, and none comes from where the
rules never get. -/
structure Failure.Plausible (e : Failure) : Prop where
  missing : e.rest = [] → ∃ kind, e.cause = .unexpected kind
  reached : e.cause ≠ .unreachable

/-- A token that is not expected is a plausible failure. -/
lemma Failure.plausible_unexpected (kind : Option Token.Kind) (rest : List Token) :
    Plausible ⟨.unexpected kind, rest⟩ := ⟨fun _ => ⟨kind, rfl⟩, Malformation.noConfusion⟩

/-- A failure at a token is plausible if it can be reached. -/
lemma Failure.plausible_of_token {cause : Malformation} (reached : cause ≠ .unreachable)
    (token : Token) (rest : List Token) : Plausible ⟨cause, token :: rest⟩ :=
  ⟨fun e => absurd e (List.cons_ne_nil token rest), reached⟩

/-- What becomes of a parser at a cursor, if it does not reach its bound. -/
def Outcome {α : Type} (p : Parser α) (c : Cursor) (done : α → List Token → List Token → Prop)
    (broken : List Token → List Token → Prop) : Prop :=
  match p c with
  | .ok a c' => c'.loopDepth = c.loopDepth ∧ ∃ ts, c.rest = ts ++ c'.rest ∧ done a ts c'.rest
  | .error e _ =>
    e.cause = .exhausted ∨ e.Plausible ∧ ∃ ts, c.rest = ts ++ e.rest ∧ broken ts e.rest

namespace Outcome
variable {α β : Type} {d : Nat} {rest : List Token}

/-- The outcome of a run with a result. -/
lemma of_ok {p : Parser α} {c c' : Cursor} {a done broken} (e : p c = .ok a c') :
    Outcome p c done broken ↔
      c'.loopDepth = c.loopDepth ∧ ∃ ts, c.rest = ts ++ c'.rest ∧ done a ts c'.rest := by
  simp only [Outcome, e]

/-- The outcome of a run that fails. -/
lemma of_error {p : Parser α} {c c' : Cursor} {e : Failure} {done broken}
    (he : p c = .error e c') :
    Outcome p c done broken ↔
      e.cause = .exhausted ∨ e.Plausible ∧ ∃ ts, c.rest = ts ++ e.rest ∧ broken ts e.rest := by
  simp only [Outcome, he]

/-- An outcome may be described by less. -/
lemma mono {p : Parser α} {done done' broken broken'} (h : Outcome p ⟨rest, d⟩ done broken)
    (hd : ∀ a ts r, rest = ts ++ r → done a ts r → done' a ts r)
    (hb : ∀ ts r, rest = ts ++ r → broken ts r → broken' ts r) :
    Outcome p ⟨rest, d⟩ done' broken' := by
  unfold Outcome at *
  split at h
  · obtain ⟨hl, ts, e, h⟩ := h
    exact ⟨hl, ts, e, hd _ _ _ e h⟩
  · obtain h | ⟨hp, ts, e, h⟩ := h
    · exact .inl h
    · exact .inr ⟨hp, ts, e, hb _ _ e h⟩

/-- To do nothing reads no token. -/
lemma pure {a : α} {done broken} (h : done a [] rest) :
    Outcome (pure a) ⟨rest, d⟩ done broken :=
  ⟨rfl, [], rfl, h⟩

/-- Where the bound is reached there is nothing to say. -/
lemma exhausted {done broken} :
    Outcome (fail .exhausted : Parser α) ⟨rest, d⟩ done broken :=
  .inl rfl

/-- A token that is not expected ends a run before it. -/
lemma unexpected {kind} {done broken} (h : broken [] rest) :
    Outcome (fail (.unexpected kind) : Parser α) ⟨rest, d⟩ done broken :=
  .inr ⟨Failure.plausible_unexpected kind rest, [], rfl, h⟩

/-- A failure of another kind has to be found at a token. -/
lemma failAt {cause} {token : Token} {done broken} (reached : cause ≠ .unreachable)
    (h : broken [] (token :: rest)) :
    Outcome (fail cause : Parser α) ⟨token :: rest, d⟩ done broken :=
  .inr ⟨Failure.plausible_of_token reached token rest, [], rfl, h⟩

/-- The outcome of runs in a row is that of the second after that of the first. -/
lemma bind {p : Parser α} {f : α → Parser β} {done done' broken broken'}
    (hp : Outcome p ⟨rest, d⟩ done broken)
    (hf : ∀ a ts r, rest = ts ++ r → done a ts r →
      Outcome (f a) ⟨r, d⟩ (fun b us r' => done' b (ts ++ us) r')
        (fun us r' => broken' (ts ++ us) r'))
    (hb : ∀ ts r, rest = ts ++ r → broken ts r → broken' ts r) :
    Outcome (p >>= f) ⟨rest, d⟩ done' broken' := by
  cases e : p ⟨rest, d⟩ with
  | error e₀ c' =>
    rw [of_error (bind_of_error e)]
    obtain h | ⟨likely, ts, e, h⟩ := (of_error e).1 hp
    · exact .inl h
    · exact .inr ⟨likely, ts, e, hb _ _ e h⟩
  | ok a c' =>
    obtain ⟨rfl, ts, split, h⟩ := (of_ok e).1 hp
    have inner := hf a ts c'.rest split h
    cases e₁ : f a c' with
    | ok b c'' =>
      rw [of_ok ((bind_of_ok e).trans e₁)]
      obtain ⟨hl, us, split', h⟩ := (of_ok e₁).1 inner
      exact ⟨hl, ts ++ us, by rw [List.append_assoc, ← split', split], h⟩
    | error e₀ c'' =>
      rw [of_error ((bind_of_ok e).trans e₁)]
      obtain h | ⟨likely, us, split', h⟩ := (of_error e₁).1 inner
      · exact .inl h
      · exact .inr ⟨likely, ts ++ us, by rw [List.append_assoc, ← split', split], h⟩

/-- A look at the next token leads on with it. -/
lemma peek {f : Option Token → Parser α} {c : Cursor} {done broken}
    (h : Outcome (f c.rest.head?) c done broken) : Outcome (Parser.peek >>= f) c done broken := h

/-- A look at the kind of the next token leads on with it. -/
lemma peekKind {f : Option Token.Kind → Parser α} {c : Cursor} {done broken}
    (h : Outcome (f (c.rest.head?.map (·.kind))) c done broken) :
    Outcome (Parser.peekKind >>= f) c done broken := h

/-- A look at the kind of the second token leads on with it. -/
lemma peekSecondKind {f : Option Token.Kind → Parser α} {c : Cursor} {done broken}
    (h : Outcome (f (c.rest.tail.head?.map (·.kind))) c done broken) :
    Outcome (Parser.peekSecondKind >>= f) c done broken := h

/-- A move reads one token. -/
lemma advance {f : Unit → Parser α} {token : Token} {done broken}
    (h : Outcome (f ()) ⟨rest, d⟩ (fun a ts r => done a (token :: ts) r)
      (fun ts r => broken (token :: ts) r)) :
    Outcome (Parser.advance >>= f) ⟨token :: rest, d⟩ done broken := by
  have read : Outcome Parser.advance ⟨token :: rest, d⟩ (fun _ ts r => ts = [token] ∧ r = rest)
      (fun _ _ => False) := ⟨rfl, [token], rfl, rfl, rfl⟩
  apply bind read
  · rintro _ ts r _ ⟨rfl, rfl⟩
    exact h
  · exact fun _ _ _ => False.elim

/-- Either the next token is of the kind, and the run goes on behind it, or the run fails here. -/
lemma expect {kind : Token.Kind} {f : Token → Parser α} {done broken}
    (hf : ∀ token r, rest = token :: r → token.kind = kind →
      Outcome (f token) ⟨r, d⟩ (fun a ts r' => done a (token :: ts) r')
        (fun ts r' => broken (token :: ts) r'))
    (hb : (∀ token ∈ rest.head?, token.kind ≠ kind) → broken [] rest) :
    Outcome (Parser.expect kind >>= f) ⟨rest, d⟩ done broken := by
  by_cases h : ∃ token ∈ rest.head?, token.kind = kind
  · obtain ⟨token, ht, h⟩ := h
    obtain ⟨rest, rfl⟩ := List.head?_eq_some_iff.1 ht
    have read : Outcome (Parser.expect kind) ⟨token :: rest, d⟩
        (fun a ts r => a = token ∧ ts = [token] ∧ r = rest) (fun _ _ => False) :=
      (of_ok (expect_of_eq h)).2 ⟨rfl, [token], rfl, rfl, rfl, rfl⟩
    apply bind read
    · rintro a ts r _ ⟨rfl, rfl, rfl⟩
      exact hf _ _ rfl h
    · exact fun _ _ _ => False.elim
  · have h : ∀ token ∈ rest.head?, token.kind ≠ kind := by simpa using h
    exact (of_error (bind_of_error (expect_of_ne h))).2
      (.inr ⟨Failure.plausible_unexpected kind rest, [], rfl, hb h⟩)

/-- The same where the token is dropped. -/
lemma expect_discard {kind : Token.Kind} {f : Unit → Parser α} {done broken}
    (hf : ∀ token r, rest = token :: r → token.kind = kind →
      Outcome (f ()) ⟨r, d⟩ (fun a ts r' => done a (token :: ts) r')
        (fun ts r' => broken (token :: ts) r'))
    (hb : (∀ token ∈ rest.head?, token.kind ≠ kind) → broken [] rest) :
    Outcome (discard (Parser.expect kind) >>= f) ⟨rest, d⟩ done broken := by
  rw [discard_bind]
  exact expect hf hb

/-- Behind an element there is a comma or the end of the list, or the run fails there. -/
lemma separator {kind : Token.Kind} {f : Unit → Parser α} {done broken}
    (hcomma : ∀ token r, rest = token :: r → token.kind = .comma →
      Outcome (f ()) ⟨r, d⟩ (fun a ts r' => done a (token :: ts) r')
        (fun ts r' => broken (token :: ts) r'))
    (hclose : rest.head?.map (·.kind) = some kind → Outcome (f ()) ⟨rest, d⟩ done broken)
    (hb : broken [] rest) :
    Outcome (Rule.separator (some kind) >>= f) ⟨rest, d⟩ done broken := by
  by_cases comma : rest.head?.map (·.kind) = some .comma
  · obtain ⟨token, ht, h⟩ := Option.map_eq_some_iff.1 comma
    obtain ⟨rest, rfl⟩ := List.head?_eq_some_iff.1 ht
    have read : Outcome (Rule.separator (some kind)) ⟨token :: rest, d⟩
        (fun _ ts r => ts = [token] ∧ r = rest) (fun _ _ => False) :=
      (of_ok (separator_of_comma h)).2 ⟨rfl, [token], rfl, rfl, rfl⟩
    apply bind read
    · rintro _ ts r _ ⟨rfl, rfl⟩
      exact hcomma _ _ rfl h
    · exact fun _ _ _ => False.elim
  by_cases close : rest.head?.map (·.kind) = some kind
  · have hc : kind ≠ .comma := by
      rintro rfl
      exact comma close
    have read : Outcome (Rule.separator (some kind)) ⟨rest, d⟩
        (fun _ ts r => ts = [] ∧ r = rest) (fun _ _ => False) :=
      (of_ok (separator_of_eq hc close)).2 ⟨rfl, [], rfl, rfl, rfl⟩
    apply bind read
    · rintro _ ts r _ ⟨rfl, rfl⟩
      exact hclose close
    · exact fun _ _ _ => False.elim
  · have e := separator_of_ne (d := d) comma close
    exact (of_error (bind_of_error e)).2
      (.inr ⟨Failure.plausible_unexpected kind rest, [], rfl, hb⟩)

/-- A run inside other loops, after which their number is what it was. -/
lemma withDepth {p p' : Parser α} {d' : Nat} {f : Nat → Nat} {done broken}
    (e : p' ⟨rest, d⟩ = withDepth f (p ⟨rest, d'⟩)) (hf : f d' = d)
    (h : Outcome p ⟨rest, d'⟩ done broken) : Outcome p' ⟨rest, d⟩ done broken := by
  unfold Outcome at *
  rw [e]
  generalize p ⟨rest, d'⟩ = result at h
  cases result with
  | ok a c =>
    obtain ⟨hl, h⟩ := h
    exact ⟨(congrArg f hl).trans hf, h⟩
  | error e₀ c => exact h

/-- A run inside of one more loop. -/
lemma inLoop {p : Parser α} {done broken} (h : Outcome p ⟨rest, d + 1⟩ done broken) :
    Outcome (inLoop p) ⟨rest, d⟩ done broken :=
  h.withDepth (inLoop_apply p _) (Nat.add_sub_cancel d 1)

/-- A run outside of all loops. -/
lemma outsideLoops {p : Parser α} {done broken} (h : Outcome p ⟨rest, 0⟩ done broken) :
    Outcome (outsideLoops p) ⟨rest, d⟩ done broken :=
  h.withDepth (outsideLoops_apply p _) rfl

end Outcome

end ScriptLang.Parser
