import Mathlib.Data.List.Infix
import Mathlib.Data.List.TakeWhile
import ScriptLang.Text.Ansi

/-!
# Texts without their colours

Colours are stripped in one pass. What the pass takes out is exactly the characters that belong to a
code somewhere in the text (`strip_eq_outside`): codes do not overlap, so every code is met. But the
characters that are left may be a code in their turn. That happens exactly where a text holds a code
that is broken up by other codes (`exists_code_strip_iff`), and then a second pass takes out more
(`strip_eq_self_iff`).
-/

namespace ScriptLang.Text

/-- A code that changes colours: an escape character, an opening bracket, digits and semicolons, and
the letter `m`. -/
def IsCode (text : List Char) : Prop :=
  ∃ parameters : List Char, (∀ c ∈ parameters, ('0' ≤ c ∧ c ≤ '9') ∨ c = ';') ∧
    text = '\x1b' :: '[' :: (parameters ++ ['m'])

/-- A place in a text belongs to a code. -/
def InCode (text : List Char) (place : Nat) : Prop :=
  ∃ start code, IsCode code ∧ code <+: text.drop start ∧
    start ≤ place ∧ place < start + code.length

open scoped Classical in
/-- The characters of a text that belong to no code, in order. -/
noncomputable def outside (text : List Char) : List Char :=
  text.zipIdx.filterMap fun (c, place) => if InCode text place then none else some c

/-- A text with codes put in at any places. -/
inductive Laced : List Char → List Char → Prop where
  | nil : Laced [] []
  | char (c : Char) {text laced : List Char} : Laced text laced → Laced (c :: text) (c :: laced)
  | code {code text laced : List Char} : IsCode code → Laced text laced → Laced text (code ++ laced)

/-- A code that is broken up by codes between its characters. -/
def IsBroken (text : List Char) : Prop :=
  ∃ parameters inner : List Char, IsCode ('\x1b' :: '[' :: (parameters ++ ['m'])) ∧
    Laced ('[' :: parameters) inner ∧ inner ≠ '[' :: parameters ∧ text = '\x1b' :: (inner ++ ['m'])

/-- Parameters are digits and semicolons. -/
lemma isParameter_iff {c : Char} :
    colours.isParameter c = true ↔ ('0' ≤ c ∧ c ≤ '9') ∨ c = ';' := by
  simp [colours]

/-- An escape character is no parameter. -/
lemma isParameter_escape : colours.isParameter '\x1b' = false := by decide

/-- The last character of a code is no parameter. -/
lemma isParameter_final : colours.isParameter 'm' = false := by decide

/-- Only the first character of a code is an escape character. -/
lemma IsCode.escape_not_mem {c : Char} {rest : List Char} (h : IsCode (c :: rest)) :
    '\x1b' ∉ rest := by
  obtain ⟨parameters, each, e⟩ := h
  obtain ⟨-, rfl⟩ := List.cons.inj e
  intro mem
  simp only [List.mem_cons, List.mem_append, List.not_mem_nil, or_false] at mem
  rcases mem with bracket | parameter | final
  · exact absurd bracket (by decide)
  · have := isParameter_iff.2 (each _ parameter)
    rw [isParameter_escape] at this
    exact Bool.false_ne_true this
  · exact absurd final (by decide)

/-- A text starts with a code exactly if something is found to follow it. -/
lemma after?_eq_some_iff {text rest : List Char} :
    colours.after? text = some rest ↔ ∃ code, IsCode code ∧ text = code ++ rest := by
  have plain (text : List Char) : text.dropWhile colours.isIntermediate = text := by
    cases text <;> rfl
  constructor
  · intro h
    unfold Sequences.after? at h
    split at h
    case h_2 => cases h
    case h_1 tail =>
      rw [plain] at h
      split at h
      case h_2 => cases h
      case h_1 final others drop =>
        split at h
        case isFalse => cases h
        case isTrue last =>
          cases h
          obtain rfl : final = 'm' := of_decide_eq_true last
          refine ⟨_, ⟨tail.takeWhile colours.isParameter, fun c mem => ?_, rfl⟩, ?_⟩
          · exact isParameter_iff.1 (List.mem_takeWhile_imp mem)
          · simp [← drop]
  · rintro ⟨_, ⟨parameters, each, rfl⟩, rfl⟩
    have drop : (parameters ++ 'm' :: rest).dropWhile colours.isParameter = 'm' :: rest := by
      rw [List.dropWhile_append_of_pos fun c mem => isParameter_iff.2 (each c mem),
        List.dropWhile_cons_of_neg (by rw [isParameter_final]; exact Bool.false_ne_true)]
    rw [List.cons_append, List.cons_append, List.append_assoc, List.singleton_append,
      Sequences.after?, drop, plain]
    rfl

/-- Nothing stands behind a code if no code is at the start. -/
lemma after?_eq_none_iff {text : List Char} :
    colours.after? text = none ↔ ∀ code, IsCode code → ¬ code <+: text := by
  constructor
  · rintro none code isCode ⟨rest, rfl⟩
    rw [after?_eq_some_iff.2 ⟨code, isCode, rfl⟩] at none
    cases none
  · intro h
    cases e : colours.after? text with
    | none => rfl
    | some rest =>
      obtain ⟨code, isCode, rfl⟩ := after?_eq_some_iff.1 e
      exact absurd (List.prefix_append code rest) (h code isCode)

/-- At most one code starts at a place. -/
lemma IsCode.eq_of_prefix {code other text : List Char} (h : IsCode code) (h' : IsCode other)
    (start : code <+: text) (start' : other <+: text) : code = other := by
  obtain ⟨rest, rfl⟩ := start
  obtain ⟨rest', e⟩ := start'
  have same := after?_eq_some_iff.2 ⟨other, h', e.symm⟩
  rw [after?_eq_some_iff.2 ⟨code, h, rfl⟩] at same
  cases same
  exact (List.append_cancel_right e).symm

/-- Nothing is left of nothing. -/
@[simp] lemma strip_nil : strip colours [] = [] := by
  unfold strip
  rfl

/-- A code at the start is taken out. -/
lemma strip_append_of_isCode {code : List Char} (h : IsCode code) (rest : List Char) :
    strip colours (code ++ rest) = strip colours rest := by
  rw [strip]
  split
  case h_1 found e =>
    rw [after?_eq_some_iff.2 ⟨code, h, rfl⟩] at e
    cases e
    rfl
  case h_2 e => exact absurd (List.prefix_append code rest) (after?_eq_none_iff.1 e code h)

/-- A character that no code starts with is left. -/
lemma strip_cons_of_none {c : Char} {rest : List Char} (h : colours.after? (c :: rest) = none) :
    strip colours (c :: rest) = c :: strip colours rest := by
  rw [strip]
  split
  case h_1 found e =>
    rw [h] at e
    cases e
  case h_2 => rfl

/-- A text either starts with a code or with a character that stays. -/
lemma strip_cases {motive : List Char → Prop} (nil : motive [])
    (code : ∀ code rest, IsCode code → motive rest → motive (code ++ rest))
    (char : ∀ c rest, colours.after? (c :: rest) = none → motive rest → motive (c :: rest))
    (text : List Char) : motive text := by
  induction text using strip.induct colours with
  | case1 text rest found ih =>
    obtain ⟨start, isCode, rfl⟩ := after?_eq_some_iff.1 found
    exact code start rest isCode ih
  | case2 => exact nil
  | case3 c rest none ih => exact char c rest none ih

/-- A character other than an escape is left. -/
lemma strip_cons_of_ne {c : Char} (h : c ≠ '\x1b') (rest : List Char) :
    strip colours (c :: rest) = c :: strip colours rest := by
  refine strip_cons_of_none (after?_eq_none_iff.2 ?_)
  rintro _ ⟨parameters, -, rfl⟩ start
  exact h (List.cons_prefix_cons.1 start).1.symm

/-- No more is left than there was. -/
lemma length_strip_le (text : List Char) : (strip colours text).length ≤ text.length := by
  induction text using strip_cases with
  | nil => rw [strip_nil]
  | code code rest isCode ih =>
    rw [strip_append_of_isCode isCode, List.length_append]
    omega
  | char c rest none ih =>
    rw [strip_cons_of_none none, List.length_cons, List.length_cons]
    omega

/-- No code goes on over an escape character. -/
lemma strip_append_escape (text rest : List Char) :
    strip colours (text ++ '\x1b' :: rest) =
      strip colours text ++ strip colours ('\x1b' :: rest) := by
  induction text using strip_cases with
  | nil => rw [strip_nil, List.nil_append, List.nil_append]
  | code code text isCode ih =>
    rw [List.append_assoc, strip_append_of_isCode isCode, strip_append_of_isCode isCode, ih]
  | char c text none ih =>
    rw [strip_cons_of_none none, List.cons_append, List.cons_append, ← ih]
    refine strip_cons_of_none (after?_eq_none_iff.2 fun code isCode start => ?_)
    rw [← List.cons_append] at start
    rcases List.prefix_or_prefix_of_prefix start (List.prefix_append _ _) with within | ⟨more, rfl⟩
    · exact after?_eq_none_iff.1 none code isCode within
    · cases more with
      | nil => exact after?_eq_none_iff.1 none _ isCode (by rw [List.append_nil])
      | cons d more =>
        obtain ⟨rfl, -⟩ := List.cons_prefix_cons.1 ((List.prefix_append_right_inj _).1 start)
        exact isCode.escape_not_mem (List.mem_append_right text List.mem_cons_self)

/-- The first character is in no code if none starts there. -/
lemma not_inCode_zero {c : Char} {rest : List Char} (h : colours.after? (c :: rest) = none) :
    ¬ InCode (c :: rest) 0 := by
  rintro ⟨start, code, isCode, occurs, le, -⟩
  obtain rfl := Nat.le_zero.1 le
  exact after?_eq_none_iff.1 h code isCode occurs

/-- Behind a character that starts no code places count from the next. -/
lemma inCode_succ {c : Char} {rest : List Char} (h : colours.after? (c :: rest) = none)
    (place : Nat) : InCode (c :: rest) (place + 1) ↔ InCode rest place := by
  constructor
  · rintro ⟨start, code, isCode, occurs, le, lt⟩
    cases start with
    | zero => exact absurd occurs (after?_eq_none_iff.1 h code isCode)
    | succ start => exact ⟨start, code, isCode, occurs, by omega, by omega⟩
  · rintro ⟨start, code, isCode, occurs, le, lt⟩
    exact ⟨start + 1, code, isCode, occurs, by omega, by omega⟩

/-- All places of a code at the start are in it. -/
lemma inCode_of_lt {code : List Char} (h : IsCode code) (rest : List Char) {place : Nat}
    (lt : place < code.length) : InCode (code ++ rest) place :=
  ⟨0, code, h, List.prefix_append code rest, Nat.zero_le place, by omega⟩

/-- Codes do not overlap. -/
lemma inCode_append {code : List Char} (h : IsCode code) (rest : List Char) (place : Nat) :
    InCode (code ++ rest) (code.length + place) ↔ InCode rest place := by
  constructor
  · rintro ⟨start, other, isCode, occurs, le, lt⟩
    by_cases inside : start < code.length
    · exfalso
      cases start with
      | zero =>
        obtain rfl := h.eq_of_prefix isCode (List.prefix_append code rest) occurs
        omega
      | succ start =>
        -- The other code would start with an escape character in the middle of this one.
        obtain ⟨c, tail, rfl⟩ := List.exists_cons_of_length_pos (Nat.zero_lt_of_lt inside)
        obtain ⟨parameters, -, rfl⟩ := isCode
        have lt : start < tail.length := Nat.lt_of_succ_lt_succ inside
        rw [List.cons_append, List.drop_succ_cons, List.drop_append_of_le_length lt.le,
          List.drop_eq_getElem_cons lt] at occurs
        have first := (List.cons_prefix_cons.1 occurs).1
        exact h.escape_not_mem (first ▸ List.getElem_mem lt)
    · rw [List.drop_append, List.drop_eq_nil_of_le (Nat.le_of_not_lt inside),
        List.nil_append] at occurs
      exact ⟨start - code.length, other, isCode, occurs, by omega, by omega⟩
  · rintro ⟨start, other, isCode, occurs, le, lt⟩
    refine ⟨code.length + start, other, isCode, ?_, by omega, by omega⟩
    rwa [List.drop_append, List.drop_eq_nil_of_le (Nat.le_add_right _ _), List.nil_append,
      Nat.add_sub_cancel_left]

/-- The pass takes out the characters that belong to codes, and no other. -/
theorem strip_eq_outside (text : List Char) : strip colours text = outside text := by
  classical
  suffices h : ∀ (n : Nat) (taken : Nat → Prop), (∀ place, taken (n + place) ↔ InCode text place) →
      ((text.zipIdx n).filterMap fun (c, place) => if taken place then none else some c) =
        strip colours text by
    have := h 0 (InCode text) fun place => by rw [Nat.zero_add]
    unfold outside
    rw [← this]
  induction text using strip_cases with
  | nil => exact fun _ _ _ => strip_nil.symm
  | code code rest isCode ih =>
    intro n taken places
    have all : ((code.zipIdx n).filterMap fun (c, place) => if taken place then none else some c) =
        [] := by
      refine List.filterMap_eq_nil_iff.2 fun ⟨c, place⟩ mem => if_pos ?_
      obtain ⟨le, lt, -⟩ := List.mem_zipIdx mem
      obtain ⟨place, rfl⟩ := Nat.exists_eq_add_of_le le
      exact (places place).2 (inCode_of_lt isCode rest (by omega))
    rw [List.zipIdx_append, List.filterMap_append, all, List.nil_append,
      strip_append_of_isCode isCode]
    refine ih _ _ fun place => ?_
    rw [Nat.add_assoc, places, inCode_append isCode]
  | char c rest none ih =>
    intro n taken places
    have stays : ¬ taken n := fun h => not_inCode_zero none ((places 0).1 h)
    rw [List.zipIdx_cons, List.filterMap_cons, strip_cons_of_none none]
    dsimp only
    rw [if_neg stays]
    refine congrArg (c :: ·) (ih _ _ fun place => ?_)
    rw [Nat.add_right_comm, Nat.add_assoc, places, inCode_succ none]

/-- What is laced with codes is left without them. -/
lemma strip_append_of_laced {text laced : List Char} (h : Laced text laced) (plain : '\x1b' ∉ text)
    (rest : List Char) : strip colours (laced ++ rest) = text ++ strip colours rest := by
  induction h with
  | nil => rfl
  | char c _ ih =>
    rw [List.mem_cons, not_or] at plain
    rw [List.cons_append, strip_cons_of_ne (Ne.symm plain.1), ih plain.2, List.cons_append]
  | code isCode _ ih => rw [List.append_assoc, strip_append_of_isCode isCode, ih plain]

/-- A text into which something was put goes on as before up to an escape character. -/
lemma Laced.eq_or_exists_escape {text laced : List Char} (h : Laced text laced) :
    laced = text ∨ ∃ before after, before <+: text ∧ laced = before ++ '\x1b' :: after := by
  induction h with
  | nil => exact .inl rfl
  | char c _ ih =>
    obtain rfl | ⟨before, after, start, rfl⟩ := ih
    · exact .inl rfl
    · exact .inr ⟨c :: before, after, List.cons_prefix_cons.2 ⟨rfl, start⟩, rfl⟩
  | code isCode _ _ =>
    obtain ⟨parameters, -, rfl⟩ := isCode
    exact .inr ⟨[], _, List.nil_prefix, rfl⟩

/-- Digits and semicolons make a code. -/
lemma IsCode.of_parameters {parameters : List Char}
    (each : ∀ c ∈ parameters, ('0' ≤ c ∧ c ≤ '9') ∨ c = ';') :
    IsCode ('\x1b' :: '[' :: (parameters ++ ['m'])) := ⟨parameters, each, rfl⟩

/-- A code has nothing but digits and semicolons inside. -/
lemma IsCode.parameters {parameters : List Char}
    (h : IsCode ('\x1b' :: '[' :: (parameters ++ ['m']))) :
    ∀ c ∈ parameters, ('0' ≤ c ∧ c ≤ '9') ∨ c = ';' := by
  obtain ⟨others, each, e⟩ := h
  simp only [List.cons.injEq, List.append_cancel_right_eq, true_and] at e
  exact e ▸ each

/-- A broken code is no code itself. -/
lemma after?_of_isBroken {broken : List Char} (h : IsBroken broken) (rest : List Char) :
    colours.after? (broken ++ rest) = none := by
  obtain ⟨parameters, inner, isCode, laced, ne, rfl⟩ := h
  obtain same | ⟨before, after, start, rfl⟩ := laced.eq_or_exists_escape
  · exact absurd same ne
  refine after?_eq_none_iff.2 ?_
  rintro _ ⟨others, each, rfl⟩ ⟨tail, e⟩
  -- Behind the bracket and the parameters stands an `m` on one side and an escape character on the
  -- other.
  let inside (c : Char) : Bool := c = '[' || colours.isParameter c
  have skipBefore : ∀ c ∈ before, inside c = true := by
    intro c mem
    rcases List.mem_cons.1 (start.subset mem) with rfl | mem
    · rfl
    · simp [inside, isParameter_iff.2 (isCode.parameters c mem)]
  have skipOthers : ∀ c ∈ '[' :: others, inside c = true := by
    refine List.forall_mem_cons.2 ⟨rfl, fun c mem => ?_⟩
    simp [inside, isParameter_iff.2 (each c mem)]
  have e : '[' :: others ++ 'm' :: tail = before ++ '\x1b' :: (after ++ 'm' :: rest) := by
    simpa using e
  have e := congrArg (List.dropWhile inside) e
  rw [List.dropWhile_append_of_pos skipOthers, List.dropWhile_append_of_pos skipBefore,
    List.dropWhile_cons_of_neg (by decide), List.dropWhile_cons_of_neg (by decide)] at e
  cases e

/-- Without the codes in it, a broken code is a code. -/
lemma exists_strip_of_isBroken {broken : List Char} (h : IsBroken broken) (rest : List Char) :
    ∃ code, IsCode code ∧ strip colours (broken ++ rest) = code ++ strip colours rest := by
  have none := after?_of_isBroken h rest
  obtain ⟨parameters, inner, isCode, laced, -, rfl⟩ := h
  refine ⟨_, isCode, ?_⟩
  have plain := isCode.escape_not_mem
  rw [← List.cons_append, List.mem_append, not_or] at plain
  rw [List.cons_append] at none ⊢
  rw [strip_cons_of_none none, List.append_assoc, strip_append_of_laced laced plain.1,
    List.singleton_append, strip_cons_of_ne (by decide)]
  simp

/-- A character that is left stands in the text, with no code at its place. -/
lemma exists_of_strip_eq {text before rest : List Char} {c : Char}
    (h : strip colours text = before ++ c :: rest) :
    ∃ laced after, Laced before laced ∧ text = laced ++ c :: after ∧
      colours.after? (c :: after) = none ∧ strip colours after = rest := by
  induction text using strip_cases generalizing before with
  | nil => simp at h
  | code code text isCode ih =>
    rw [strip_append_of_isCode isCode] at h
    obtain ⟨laced, after, put, rfl, none, left⟩ := ih h
    exact ⟨code ++ laced, after, .code isCode put, (List.append_assoc ..).symm, none, left⟩
  | char d text none ih =>
    rw [strip_cons_of_none none] at h
    cases before with
    | nil =>
      obtain ⟨rfl, left⟩ := List.cons.inj h
      exact ⟨[], text, .nil, rfl, none, left⟩
    | cons e before =>
      obtain ⟨rfl, left⟩ := List.cons.inj h
      obtain ⟨laced, after, put, rfl, none, left⟩ := ih left
      exact ⟨d :: laced, after, .char d put, rfl, none, left⟩

/-- A code is left exactly where a broken one was. -/
theorem exists_code_strip_iff {text : List Char} :
    (∃ code, IsCode code ∧ code <:+: strip colours text) ↔
      ∃ broken, IsBroken broken ∧ broken <:+: text := by
  constructor
  · rintro ⟨_, ⟨parameters, each, rfl⟩, before, rest, e⟩
    rw [List.append_assoc, List.cons_append] at e
    obtain ⟨start, after, -, rfl, none, left⟩ := exists_of_strip_eq e.symm
    rw [List.cons_append, List.append_assoc, ← List.cons_append, List.singleton_append] at left
    obtain ⟨inner, after, laced, rfl, -, -⟩ := exists_of_strip_eq left
    refine ⟨'\x1b' :: (inner ++ ['m']), ⟨parameters, inner, .of_parameters each, laced, ?_, rfl⟩,
      start, after, by simp⟩
    rintro rfl
    refine after?_eq_none_iff.1 none _ (.of_parameters each) ⟨after, ?_⟩
    simp
  · rintro ⟨broken, isBroken, before, rest, rfl⟩
    obtain ⟨code, isCode, e⟩ := exists_strip_of_isBroken isBroken rest
    refine ⟨code, isCode, strip colours before, strip colours rest, ?_⟩
    obtain ⟨parameters, inner, -, -, -, rfl⟩ := isBroken
    rw [List.append_assoc, List.append_assoc, ← e, List.cons_append, ← strip_append_escape]

/-- A pass changes nothing exactly if there is no code. -/
theorem strip_eq_self_iff {text : List Char} :
    strip colours text = text ↔ ¬ ∃ code, IsCode code ∧ code <:+: text := by
  constructor
  · rintro same ⟨code, isCode, before, rest, rfl⟩
    have shorter :
        (strip colours (before ++ code ++ rest)).length ≤ before.length + rest.length := by
      have e := strip_append_of_isCode isCode rest
      obtain ⟨parameters, -, rfl⟩ := isCode
      rw [List.append_assoc, List.cons_append, strip_append_escape, ← List.cons_append, e,
        List.length_append]
      exact Nat.add_le_add (length_strip_le before) (length_strip_le rest)
    have positive : 0 < code.length := by
      obtain ⟨parameters, -, rfl⟩ := isCode
      exact Nat.zero_lt_succ _
    rw [same, List.length_append, List.length_append] at shorter
    omega
  · intro free
    induction text using strip_cases with
    | nil => exact strip_nil
    | code code rest isCode _ =>
      exact absurd ⟨code, isCode, (List.prefix_append code rest).isInfix⟩ free
    | char c rest none ih =>
      rw [strip_cons_of_none none, ih]
      rintro ⟨code, isCode, occurs⟩
      exact free ⟨code, isCode, List.infix_cons occurs⟩

/-- Without its colours a text is what belonged to no code. It holds a code exactly if the text held
one that was broken up by other codes, and only then would another pass take out more. -/
theorem stripColours_leaves_broken_codes (text : String) :
    (stripColours text).toList = outside text.toList ∧
    ((∃ code, IsCode code ∧ code <:+: (stripColours text).toList) ↔
      ∃ broken, IsBroken broken ∧ broken <:+: text.toList) ∧
    (stripColours (stripColours text) = stripColours text ↔
      ¬ ∃ broken, IsBroken broken ∧ broken <:+: text.toList) := by
  have left : (stripColours text).toList = strip colours text.toList := String.toList_ofList
  have again : stripColours (stripColours text) = stripColours text ↔
      strip colours (strip colours text.toList) = strip colours text.toList := by
    unfold stripColours
    rw [String.toList_ofList]
    exact String.ofList_inj
  rw [left, again, strip_eq_self_iff, exists_code_strip_iff]
  exact ⟨strip_eq_outside text.toList, Iff.rfl, Iff.rfl⟩

/-- A code in the middle of a code: once it is taken out, the code around it is whole. -/
theorem nested_code_survives :
    (∃ code, IsCode code ∧ code <:+: (stripColours "\x1b\x1b[m[m").toList) ∧
      stripColours (stripColours "\x1b\x1b[m[m") ≠ stripColours "\x1b\x1b[m[m" := by
  have plain : IsCode ['\x1b', '[', 'm'] := ⟨[], by simp, rfl⟩
  have once : stripColours "\x1b\x1b[m[m" = "\x1b[m" := by
    have left := strip_append_of_isCode plain ['[', 'm']
    rw [strip_cons_of_ne (by decide), strip_cons_of_ne (by decide), strip_nil] at left
    exact congrArg String.ofList ((strip_cons_of_none rfl).trans (congrArg _ left))
  have twice : stripColours "\x1b[m" = "" :=
    congrArg String.ofList ((strip_append_of_isCode plain []).trans strip_nil)
  rw [once, twice]
  exact ⟨⟨_, plain, List.infix_rfl⟩, by decide⟩

end ScriptLang.Text
