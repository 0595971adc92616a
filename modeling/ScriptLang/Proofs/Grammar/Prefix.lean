import ScriptLang.Proofs.Grammar.Locality

/-!
# Where errors are found

An error in a script is found at the first token that cannot stand where it does: what is before it
can be completed, and nothing that begins with it can. So a script is unfinished exactly if more
tokens would mend it, and that is what `SyntaxError.isIncomplete` tells.
-/

namespace ScriptLang
open ScriptLang.Parser ScriptLang.Rule

/-- The tokens are those of a whole script. -/
def Accepted (ts : List Token) : Prop := ∃ p, parseTokens ts = .ok p

/-- The script is reported to end too early, at a place. -/
def Unfinished (stop : Position) (ts : List Token) : Prop :=
  ∃ e, parseTokens ts = .error e ∧ (SyntaxError.ofFailure stop e).isIncomplete = true

/-- What is derived as statements is accepted. -/
lemma Accepted.of_derives {p ts} (h : Derives false (.statements p) ts) : Accepted ts :=
  ⟨p, parseTokens_eq_ok_iff.2 (statementsOf_eq_iff.2 h)⟩

/-- Tokens that are not accepted have an error. -/
lemma error_of_not_accepted {ts : List Token} (h : ¬ Accepted ts) :
    ∃ e, parseTokens ts = .error e := by
  cases result : parseTokens ts with
  | ok p => exact absurd ⟨p, result⟩ h
  | error e => exact ⟨e, rfl⟩

/-- An error tells of an incomplete script if and only if it is found at the end. -/
lemma isIncomplete_ofFailure {stop : Position} {e : Failure} (likely : e.Plausible) :
    (SyntaxError.ofFailure stop e).isIncomplete = true ↔ e.rest = [] := by
  obtain ⟨cause, rest⟩ := e
  cases rest with
  | nil =>
    obtain ⟨kind, rfl⟩ := likely.missing rfl
    exact iff_of_true rfl rfl
  | cons token rest => exact iff_of_false Bool.false_ne_true (List.cons_ne_nil _ _)

/-- What is before an error can be completed. -/
lemma completes_of_error {ts : List Token} {e : Failure} (h : parseTokens ts = .error e) :
    e.Plausible ∧ ∃ s, ts = s ++ e.rest ∧ ∃ w, Accepted (s ++ w) := by
  obtain ⟨p, h⟩ := parseTokens_eq_error_iff.1 h
  have outcome := statementsFrom_outcome (Nat.le_refl ts.length) (Nat.le_refl _)
  rw [show statementsFrom _ _ _ = (p, some e) from h] at outcome
  obtain ⟨likely, s, split, w, q, hq⟩ := outcome
  exact ⟨likely, s, split, w, .of_derives hq⟩

/-- The token of an error cannot stand where it does, whatever follows. -/
lemma not_accepted_of_error {s rest : List Token} {token : Token} {e : Failure}
    (h : parseTokens (s ++ token :: rest) = .error e) (he : e.rest = token :: rest)
    (w : List Token) : ¬ Accepted (s ++ token :: w) := by
  obtain ⟨cause, _⟩ := e
  obtain rfl := he
  obtain ⟨p, h⟩ := parseTokens_eq_error_iff.1 h
  -- The token is taken for the last of the common start, so the failure lies inside it.
  rw [List.append_cons] at h
  rw [List.append_cons]
  obtain ⟨q, agree⟩ := statementsFrom_agree (t := [token]) (y := w) (by simp) (Nat.le_refl _)
    (Nat.le_refl _) (Nat.le_refl _) (Nat.le_refl _) (by simp) h
  rintro ⟨p', ok⟩
  have failed := parseTokens_eq_error_iff.2 ⟨q, agree⟩
  rw [ok] at failed
  cases failed

/-- What can be completed but is not complete is unfinished. -/
lemma unfinished_of_completes {stop : Position} {ts w : List Token} (h : ¬ Accepted ts)
    (hw : Accepted (ts ++ w)) : Unfinished stop ts := by
  obtain ⟨e, error⟩ := error_of_not_accepted h
  obtain ⟨likely, s, split, _⟩ := completes_of_error error
  refine ⟨e, error, (isIncomplete_ofFailure likely).2 ?_⟩
  cases rest : e.rest with
  | nil => rfl
  | cons token r =>
    -- An error at a token would rule out every completion.
    rw [rest] at split
    rw [split] at error hw
    rw [List.append_assoc] at hw
    exact absurd hw (not_accepted_of_error error rest (r ++ w))

/-- Unfinished tokens are not accepted, but may be completed. -/
lemma Unfinished.completes {stop : Position} {ts : List Token} (h : Unfinished stop ts) :
    ¬ Accepted ts ∧ ∃ w, Accepted (ts ++ w) := by
  obtain ⟨e, error, incomplete⟩ := h
  obtain ⟨likely, s, split, w, hw⟩ := completes_of_error error
  rw [(isIncomplete_ofFailure likely).1 incomplete, List.append_nil] at split
  subst split
  refine ⟨?_, w, hw⟩
  rintro ⟨p, ok⟩
  rw [ok] at error
  cases error

/-- An error stands at the first token that no script can have there, or at the end of an
unfinished script. So a script is unfinished if and only if it is not accepted but some tokens would
complete it, and everything that an accepted script begins with is accepted or unfinished. -/
theorem parseTokens_correct_prefix (stop : Position) (ts : List Token) :
    (∀ e, parseTokens ts = .error e → ∃ k ≤ ts.length, e.found = ts[k]? ∧
      (∃ w, Accepted (ts.take k ++ w)) ∧
      ∀ token, ts[k]? = some token → ∀ w, ¬ Accepted (ts.take k ++ token :: w)) ∧
    (Unfinished stop ts ↔ ¬ Accepted ts ∧ ∃ w, Accepted (ts ++ w)) ∧
    (Accepted ts → ∀ s, s <+: ts → Accepted s ∨ Unfinished stop s) := by
  have unfinished_iff : Unfinished stop ts ↔ ¬ Accepted ts ∧ ∃ w, Accepted (ts ++ w) :=
    ⟨Unfinished.completes, fun ⟨h, w, hw⟩ => unfinished_of_completes h hw⟩
  refine ⟨fun e error => ?_, unfinished_iff, ?_⟩
  · obtain ⟨_, s, split, hw⟩ := completes_of_error error
    have take : ts.take s.length = s := by rw [split, List.take_left]
    have found : ts[s.length]? = e.rest.head? := by
      rw [split, List.getElem?_append_right (Nat.le_refl _), Nat.sub_self, List.head?_eq_getElem?]
    refine ⟨s.length, by rw [split, List.length_append]; exact Nat.le_add_right _ _, found.symm,
      by rwa [take], fun token h w => ?_⟩
    rw [found] at h
    obtain ⟨rest, rest_eq⟩ := List.head?_eq_some_iff.1 h
    rw [split, rest_eq] at error
    rw [take]
    exact not_accepted_of_error error rest_eq w
  · rintro accepted s ⟨w, rfl⟩
    by_cases h : Accepted s
    · exact .inl h
    · exact .inr (unfinished_of_completes h accepted)

end ScriptLang
