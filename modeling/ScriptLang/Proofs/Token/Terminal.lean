import Mathlib.Computability.Language
import ScriptLang.Proofs.Grammar.Derivation

/-!
# Terminals

What a piece of a script may be, as languages of texts: for every kind of token the texts that it
is written as, and the comments and the separators. The languages are put together from classes of
characters by union, concatenation and repetition. Keywords are matched by the terminal of names as
well.
-/

namespace ScriptLang.Token

open scoped Computability

/-- The texts that are one character of a class. -/
def oneOf (p : Char → Bool) : Language Char := {text | ∃ c, p c = true ∧ text = [c]}

/-- The texts of some characters of a class, at least one. -/
def someOf (p : Char → Bool) : Language Char := oneOf p * (oneOf p)∗

/-- Some characters of a class. -/
lemma mem_kstar_oneOf {p : Char → Bool} {text : List Char} :
    text ∈ (oneOf p)∗ ↔ ∀ c ∈ text, p c = true := by
  rw [Language.mem_kstar]
  constructor
  · rintro ⟨words, rfl, each⟩ c mem
    obtain ⟨word, hword, mem⟩ := List.mem_flatten.1 mem
    obtain ⟨d, hd, rfl⟩ := each word hword
    obtain rfl := List.mem_singleton.1 mem
    exact hd
  · intro each
    refine ⟨text.map fun c => [c], ?_, fun word mem => ?_⟩
    · rw [← List.flatMap_def, List.flatMap_singleton']
    · obtain ⟨c, hc, rfl⟩ := List.mem_map.1 mem
      exact ⟨c, each c hc, rfl⟩

/-- A character of a class before a word of a language. -/
lemma mem_oneOf_mul {p : Char → Bool} {l : Language Char} {text : List Char} :
    text ∈ oneOf p * l ↔ ∃ c rest, p c = true ∧ rest ∈ l ∧ text = c :: rest := by
  rw [Language.mem_mul]
  constructor
  · rintro ⟨_, ⟨c, hc, rfl⟩, rest, mem, rfl⟩
    exact ⟨c, rest, hc, mem, rfl⟩
  · rintro ⟨c, rest, hc, mem, rfl⟩
    exact ⟨[c], ⟨c, hc, rfl⟩, rest, mem, rfl⟩

/-- At least one character of a class. -/
lemma mem_someOf {p : Char → Bool} {text : List Char} :
    text ∈ someOf p ↔ text ≠ [] ∧ ∀ c ∈ text, p c = true := by
  unfold someOf
  rw [mem_oneOf_mul]
  constructor
  · rintro ⟨c, rest, hc, mem, rfl⟩
    exact ⟨List.cons_ne_nil _ _, List.forall_mem_cons.2 ⟨hc, mem_kstar_oneOf.1 mem⟩⟩
  · rintro ⟨ne, each⟩
    obtain ⟨c, rest, rfl⟩ := List.exists_cons_of_ne_nil ne
    obtain ⟨hc, each⟩ := List.forall_mem_cons.1 each
    exact ⟨c, rest, hc, mem_kstar_oneOf.2 each, rfl⟩

/-- Digits by their code points. -/
lemma isDigit_iff {c : Char} : isDigit c = true ↔ 48 ≤ c.toNat ∧ c.toNat ≤ 57 := by
  simp only [isDigit, Bool.and_eq_true, decide_eq_true_eq, Char.le_def, UInt32.le_iff_toNat_le]
  exact Iff.rfl

/-- What starts names, by code points. -/
lemma isNameStart_iff {c : Char} : isNameStart c = true ↔
    (97 ≤ c.toNat ∧ c.toNat ≤ 122) ∨ (65 ≤ c.toNat ∧ c.toNat ≤ 90) ∨ c.toNat = 95 ∨
      c.toNat = 63 := by
  simp only [isNameStart, isLetter, Bool.or_eq_true, Bool.and_eq_true, decide_eq_true_eq,
    Char.le_def, UInt32.le_iff_toNat_le, ← Char.toNat_inj, or_assoc]
  exact Iff.rfl

/-- What starts a name may be a part of it. -/
lemma isNamePart_of_isNameStart {c : Char} (h : isNameStart c = true) : isNamePart c = true := by
  unfold isNamePart
  rw [h]
  rfl

/-- What starts a number does not start a name. -/
lemma isNameStart_of_isDigit {c : Char} (h : isDigit c = true) : isNameStart c = false := by
  rw [isDigit_iff] at h
  rw [← Bool.not_eq_true, isNameStart_iff]
  omega

/-- What separates tokens starts neither a name nor a number. -/
lemma not_start_of_isSeparator {c : Char} (h : isSeparator c = true) :
    isNameStart c = false ∧ isDigit c = false := by
  have separates : Text.isBlank c = true ∨ c.toNat = ';'.toNat := by
    simpa only [isSeparator, Bool.or_eq_true, decide_eq_true_eq, Char.toNat_inj] using h
  have semicolon : ';'.toNat = 59 := rfl
  simp only [Text.isBlank, Bool.or_eq_true, Bool.and_eq_true, decide_eq_true_eq, beq_iff_eq]
    at separates
  rw [← Bool.not_eq_true, ← Bool.not_eq_true, isNameStart_iff, isDigit_iff]
  omega

/-- A kind of pieces. -/
inductive Terminal where
  | token (kind : Kind)
  | comment
  | separator
  deriving DecidableEq

/-- What may stand between the quotes of a string: a character other than a quote and a backslash,
or a backslash and a character other than a line feed. -/
def stringPart : Language Char :=
  oneOf (fun c => c ≠ '\x22' && c ≠ '\\') + {['\\']} * oneOf (· ≠ '\n')

namespace Terminal

/-- The kind of the tokens of a terminal. -/
def kind? : Terminal → Option Kind
  | token kind => some kind
  | comment | separator => none

/-- The texts that match a terminal. -/
def language : Terminal → Language Char
  | token .name => oneOf isNameStart * (oneOf isNamePart)∗
  | token .number => (1 + someOf isDigit * {['.']}) * someOf isDigit
  | token .string => {['\x22']} * stringPart∗ * {['\x22']}
  | token kind => {kind.spelling.toList}
  | comment => {['-', '-']} * (oneOf (· ≠ '\n'))∗
  | separator => someOf isSeparator

/-- Names are a letter and what may follow it. -/
lemma mem_name {text : List Char} : text ∈ (token .name).language ↔
    ∃ c rest, isNameStart c = true ∧ (∀ d ∈ rest, isNamePart d = true) ∧ text = c :: rest := by
  simp only [language, mem_oneOf_mul, mem_kstar_oneOf]

/-- A word that is given letter by letter is a name if that can be computed. -/
lemma mem_name_of_all {c : Char} {rest : List Char} (start : isNameStart c = true)
    (each : rest.all isNamePart = true) : c :: rest ∈ (token .name).language :=
  mem_name.2 ⟨c, rest, start, List.all_eq_true.1 each, rfl⟩

/-- A number is a run of digits, or two of them with a point in between. -/
lemma mem_number {text : List Char} : text ∈ (token .number).language ↔
    text ∈ someOf isDigit ∨
      ∃ whole fraction, whole ∈ someOf isDigit ∧ fraction ∈ someOf isDigit ∧
        text = whole ++ '.' :: fraction := by
  unfold language
  rw [Language.mem_mul]
  constructor
  · rintro ⟨start, hs, fraction, hf, rfl⟩
    obtain rfl | ⟨whole, hw, _, rfl, rfl⟩ := hs
    · exact .inl hf
    · exact .inr ⟨whole, fraction, hw, hf, by simp⟩
  · rintro (h | ⟨whole, fraction, hw, hf, rfl⟩)
    · exact ⟨[], .inl rfl, text, h, rfl⟩
    · exact ⟨whole ++ ['.'], .inr ⟨whole, hw, _, rfl, rfl⟩, fraction, hf, by simp⟩

/-- Strings are their parts between quotes. -/
lemma mem_string {text : List Char} : text ∈ (token .string).language ↔
    ∃ parts ∈ stringPart∗, text = '\x22' :: (parts ++ ['\x22']) := by
  unfold language
  rw [mul_assoc]
  simp only [Language.mem_mul]
  constructor
  · rintro ⟨_, rfl, _, ⟨parts, mem, _, rfl, rfl⟩, rfl⟩
    exact ⟨parts, mem, rfl⟩
  · rintro ⟨parts, mem, rfl⟩
    exact ⟨_, rfl, _, ⟨parts, mem, _, rfl, rfl⟩, rfl⟩

/-- Comments are two minus signs and the rest of the line. -/
lemma mem_comment {text : List Char} : text ∈ comment.language ↔
    ∃ rest, (∀ c ∈ rest, c ≠ '\n') ∧ text = '-' :: '-' :: rest := by
  unfold language
  rw [Language.mem_mul]
  constructor
  · rintro ⟨_, rfl, rest, mem, rfl⟩
    exact ⟨rest, fun c hc => by simpa using mem_kstar_oneOf.1 mem c hc, rfl⟩
  · rintro ⟨rest, each, rfl⟩
    exact ⟨_, rfl, rest, mem_kstar_oneOf.2 fun c hc => by simpa using each c hc, rfl⟩

/-- Separators are at least one character that separates tokens. -/
lemma mem_separator {text : List Char} : text ∈ separator.language ↔
    text ≠ [] ∧ ∀ c ∈ text, isSeparator c = true := mem_someOf

end Terminal

end ScriptLang.Token
