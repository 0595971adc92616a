import ScriptLang.Proofs.Evaluation.Sessions
import ScriptLang.Proofs.Evaluation.Transparency
import ScriptLang.Proofs.Value.Literal
import ScriptLang.Proofs.Value.Reading

/-!
# Echoes read back

The echo of a value is written in the language itself: it reads as the literal of the value
(`Value.Readable.readsAs`). So a script that returns it gives the value back, and no two values are
echoed alike (`echo_reads_back`).
-/

namespace ScriptLang
open Evaluation Token

/-- The text of a number that reads back reads as its literal. -/
lemma Number.ReadsBack.readsAs {x : Float} (h : ReadsBack x) :
    ∃ pieces, ReadsAs (.operand Precedence.unary.rank (Value.number x).literal)
      (Number.text x).toList pieces := by
  obtain ⟨sign, digits, signs, mem, text, value⟩ := h.written
  obtain ⟨c, cs, digit, e⟩ := eq_digit_cons mem
  have ne : digits.head? ≠ some '-' := by
    rintro starts
    rw [e] at starts
    cases starts
    cases digit
  have reads := ReadsAs.digits mem
  rw [value] at reads
  have sign_iff := head?_text h.ne
  rw [text] at sign_iff ⊢
  unfold Value.literal
  rcases signs with rfl | rfl
  · have positive : (shape x).isNegative = false := by
      rw [← Bool.not_eq_true, ← sign_iff]
      exact ne
    rw [abs_of_not_isNegative ?_ positive] at reads
    · rw [positive]
      exact ⟨_, reads⟩
    · intro nan
      rw [text_of_nan nan, List.nil_append, e] at text
      cases text
      cases digit
  · rw [if_pos (sign_iff.1 rfl)]
    exact ⟨_, reads.negation ne⟩

namespace Value

/-- Echoes with commas and blanks between them read as the elements of a list. -/
lemma readsAs_commaSeparated {elements : List Value}
    (each : ∀ v ∈ elements, ∃ pieces,
      ReadsAs (.operand Precedence.unary.rank v.literal) v.echo.toList pieces) :
    ∃ pieces, ReadsAs (.elements (literals elements))
      (commaSeparated (echoes elements)).toList pieces := by
  apply ReadsAs.commaSeparated
  induction elements with
  | nil => exact .nil
  | cons v rest ih =>
    obtain ⟨⟨pieces, reads⟩, each⟩ := List.forall_mem_cons.1 each
    exact .cons ⟨pieces, reads.mono (Nat.zero_le _)⟩ (ih each)

/-- The echo of a value reads as its literal. -/
lemma Readable.readsAs {v : Value} (h : v.Readable) :
    ∃ pieces, ReadsAs (.operand Precedence.unary.rank v.literal) v.echo.toList pieces := by
  induction h with
  | number h => exact h.readsAs
  | string text => exact ⟨_, .quote text⟩
  | boolean value => exact ⟨_, .boolean value⟩
  | @list elements _ ih =>
    obtain ⟨_, reads⟩ := readsAs_commaSeparated ih
    have text : (Value.list elements).echo.toList =
        '[' :: ((commaSeparated (echoes elements)).toList ++ [']']) := by
      simp [echo]
    rw [text]
    exact ⟨_, reads.list⟩

end Value

/-- A return that can be shown is counted and traced, and then its expression is evaluated. -/
lemma execute_return (settings : Settings) (evaluate : Evaluator) (line : Option Int)
    {e : Expression} (named : (Form.returns (some e)).nameless? = none) (m : Machine) :
    ∃ m', Evaluation.execute settings evaluate (.mk line (.returns (some e))) m =
      Run.locatedAt (.mk line (.returns (some e)))
        (do return .returned (← evaluate e) : Run Signal) m' := by
  obtain ⟨m', announced⟩ : ∃ m', announceStep settings (.mk line (.returns (some e))) m =
      .ok () m' := by
    obtain ⟨_, traced⟩ := announceStep_traced settings.library settings.rounds
      settings.verbosity m (s := .mk line (.returns (some e))) named
    exact ⟨_, traced⟩
  refine ⟨m', ?_⟩
  rw [execute_mk, Run.bind_of_ok announced]
  unfold executeForm
  rfl

/-- A program that returns the literal of a value gives the value, unless that nests too deeply. -/
lemma runProgram_return (settings : Settings) {limit : Nat} {line : Option Int} {v : Value}
    (readable : v.Readable) (named : (Form.returns (some v.literal)).nameless? = none)
    (m : Machine) :
    Run.result (runProgram settings limit [.mk line (.returns (some v.literal))] m) =
      if v.nesting ≤ limit then .ok (some v)
      else .error (.failure (.error (.ofCause .depthExceeded))) := by
  obtain ⟨m', ran⟩ := execute_return settings (evaluate settings limit) line named m
  rw [readable.evaluate_literal] at ran
  rw [runProgram_apply, executeBlock]
  by_cases fits : v.nesting ≤ limit
  · rw [if_pos fits] at ran ⊢
    rw [Run.bind_of_ok ran]
    rfl
  · rw [if_neg fits] at ran ⊢
    rw [Run.bind_of_error ran]
    rfl

/-- A script that returns the echo of a value gives the value, unless that nests too deeply. -/
lemma run_echo {v : Value} (readable : v.Readable) (engine : Engine) (limits : Limits)
    (options : Options) :
    (engine.run limits ("return " ++ v.echo) options).1.outcome =
      if v.nesting ≤ limits.depth then .ok (some v)
      else .error (.failed (.error (.ofCause .depthExceeded))) := by
  obtain ⟨pieces, reads⟩ := readable.readsAs
  obtain ⟨line, parsed⟩ := parse_return reads
  have named := Statement.nameless?_eq_none
    (obeys_of_parse Conventions.namedTargets_allowsWellFormed parsed).1
  unfold Engine.run
  rw [parsed]
  dsimp only
  rw [engine.execute_fst limits _ options rfl]
  dsimp only
  rw [runProgram_return _ readable named]
  split_ifs
  · rfl
  · rfl

/-- Echoes read back. A script that returns the echo of a value gives the value, unless evaluations
may not nest as deeply as the value does. So no two values are echoed alike. The echo of a string is
a single token, from which the string is decoded. -/
theorem echo_reads_back {v : Value} (readable : v.Readable) (engine : Engine) (limits : Limits)
    (options : Options) :
    (engine.run limits ("return " ++ v.echo) options).1.outcome =
        (if v.nesting ≤ limits.depth then .ok (some v)
        else .error (.failed (.error (.ofCause .depthExceeded)))) ∧
      (∀ w : Value, w.Readable → w.echo = v.echo → w = v) ∧
      ∀ s : String, tokenize (Value.string s).echo = .ok [⟨.string, quote s, .start⟩] ∧
        String.ofList (Literal.decode (quote s).toList) = s := by
  refine ⟨run_echo readable engine limits options, fun w readable' same => ?_, fun s => ⟨?_, ?_⟩⟩
  · let deep : Limits := ⟨max v.nesting w.nesting, limits.rounds⟩
    have first := run_echo readable engine deep options
    have second := run_echo readable' engine deep options
    rw [if_pos (le_max_left _ _)] at first
    rw [if_pos (le_max_right _ _), same, first] at second
    exact (Option.some.inj (Except.ok.inj second)).symm
  · have scanned := cut_eq_iff.2 ⟨(ReadsAs.quote s).tiling, unmatched_nil⟩
    rw [Value.echo, tokenize_of_cut scanned, tokensAt_singleton, String.ofList_toList]
  · unfold quote
    rw [String.toList_ofList, Literal.decode_encode, String.ofList_toList]

/-- A list of a string with characters that are escaped, a boolean and a list of numbers. -/
def sampleList : Value :=
  .list [.string "a \"quote\" and a \\", .boolean true, .list [.number (-1.5), .number 2.0]]

/-- The list is readable. -/
lemma sampleList_readable : sampleList.Readable := by
  have negative : Number.ReadsBack (-1.5) := by
    refine ⟨by decide +kernel, ['-'], ['1', '.', '5'], .inr rfl, ?_, by decide +kernel,
      by decide +kernel⟩
    refine Terminal.mem_number.2 (.inr ⟨['1'], ['5'], ?_, ?_, rfl⟩)
    · exact mem_someOf.2 ⟨List.cons_ne_nil _ _, List.all_eq_true.1 rfl⟩
    · exact mem_someOf.2 ⟨List.cons_ne_nil _ _, List.all_eq_true.1 rfl⟩
  have whole : Number.ReadsBack 2.0 := by
    refine ⟨by decide +kernel, [], ['2'], .inl rfl, ?_, by decide +kernel, by decide +kernel⟩
    exact Terminal.mem_number.2 (.inl (mem_someOf.2 ⟨List.cons_ne_nil _ _, List.all_eq_true.1 rfl⟩))
  refine .list ?_
  simp only [List.forall_mem_cons]
  refine ⟨.string _, .boolean _, .list ?_, nofun⟩
  simp only [List.forall_mem_cons]
  exact ⟨.number negative, .number whole, nofun⟩

/-- The echo of the list gives the list back. -/
theorem sampleList_reads_back :
    sampleList.Readable ∧
      ((Engine.new .empty).run ⟨4, 0⟩ ("return " ++ sampleList.echo) ⟨0, none, false⟩).1.outcome =
        .ok (some sampleList) := by
  refine ⟨sampleList_readable, ?_⟩
  have fits : sampleList.nesting ≤ 4 := by decide +kernel
  have outcome := (echo_reads_back sampleList_readable (.new .empty) ⟨4, 0⟩ ⟨0, none, false⟩).1
  rwa [if_pos fits] at outcome

end ScriptLang
