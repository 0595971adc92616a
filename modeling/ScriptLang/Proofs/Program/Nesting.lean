import ScriptLang.Proofs.Evaluation.Room
import ScriptLang.Proofs.Program.Unparsing

/-!
# Nested parentheses

Parentheses leave no trace in the tree of an expression, but each pair of them takes room for two
calls while it is read. So a script that returns a number between parentheses is read as if they
were not there where there is room enough (`fits_nested`), and not at all where there is too little
(`not_fits_nested`).
-/

namespace ScriptLang
open ScriptLang.Parser ScriptLang.Rule Token

section
variable {α : Type} {n room loops : Nat} {c : Cursor} {first : Token} {opening others : List Token}

/-- A rule runs out of room if its own step does with what is left inside of it. -/
lemma exhausted_of_step {rule : Rule α} (h : ∀ m, 0 < room →
      Exhausted (step (fun callee => Rule.parseWithin m (room - rule.room callee) callee) rule) c) :
    Exhausted (Rule.parseWithin n room rule) c := by
  cases n with
  | zero => exact ⟨_, _, rfl⟩
  | succ n =>
    obtain rfl | some := Nat.eq_zero_or_pos room
    · exact exhausted_parseWithin_zero _ rule c
    · rw [parseWithin_succ some]
      exact h n some

/-- An expression runs out of room if its leaf does with what is left inside of it. -/
lemma exhausted_expression {level : Precedence}
    (h : ∀ m, Exhausted (Rule.parseWithin m (room - 1) .leaf) c) :
    Exhausted (Rule.parseWithin n room (.expression level)) c :=
  exhausted_of_step fun m _ => (h m).bind

/-- Parentheses that are nested take room for two calls each. -/
lemma exhausted_leaf (each : ∀ t ∈ opening, t.kind = .leftParen) (le : room ≤ 2 * opening.length) :
    Exhausted (Rule.parseWithin n room .leaf) ⟨opening ++ others, loops⟩ := by
  induction opening generalizing n room with
  | nil =>
    obtain rfl : room = 0 := Nat.le_zero.1 le
    exact exhausted_parseWithin_zero n .leaf _
  | cons first opening ih =>
    obtain ⟨paren, each⟩ := List.forall_mem_cons.1 each
    rw [List.length_cons] at le
    -- The leaf takes room for one call, and the expression in its parentheses for another.
    refine exhausted_of_step fun m _ => ?_
    have inner : Exhausted (Rule.parseWithin m (room - 1) (.expression .lowest))
        ⟨opening ++ others, loops⟩ := exhausted_expression fun _ => ih each (by omega)
    obtain ⟨kind, text, position⟩ := first
    obtain rfl : kind = .leftParen := paren
    exact inner.bind

/-- A return runs out of room if the value between the parentheses does. -/
lemma exhausted_statement (returns : first.kind = .returnWord)
    (each : ∀ t ∈ opening, t.kind = .leftParen) (some : opening ≠ [])
    (le : room ≤ 2 * opening.length + 3) :
    Exhausted (Rule.parseWithin n room .statement) ⟨first :: (opening ++ others), loops⟩ := by
  obtain ⟨kind, text, position⟩ := first
  obtain rfl : kind = .returnWord := returns
  refine exhausted_of_step fun _ _ => exhausted_of_step fun m _ => ?_
  have value : Exhausted (Rule.parseWithin m (room - 1 - 1) (.expression .lowest))
      ⟨opening ++ others, loops⟩ :=
    exhausted_expression fun _ => exhausted_leaf each (by omega)
  obtain ⟨⟨kind, text', position'⟩, opening, rfl⟩ := List.exists_cons_of_ne_nil some
  obtain rfl : kind = .leftParen := each _ List.mem_cons_self
  exact value.bind

/-- There is no room for a script that returns what stands between too many parentheses. -/
lemma not_fits_of_parentheses {source : String}
    (scanned : tokenize source = .ok (first :: (opening ++ others)))
    (returns : first.kind = .returnWord) (each : ∀ t ∈ opening, t.kind = .leftParen)
    (some : opening ≠ []) (le : room ≤ 2 * opening.length + 3) : ¬ Fits room source := by
  refine not_not.2 (parseWithin_of_outOfRoom scanned ?_)
  have exhausted (n : Nat) : Exhausted (Rule.parseWithin n room .statement)
      ⟨first :: (opening ++ others), 0⟩ := exhausted_statement returns each some le
  obtain ⟨rest, c', exhausted⟩ := exhausted (bound (first :: (opening ++ others)).length)
  refine ⟨rest, ?_⟩
  rw [List.length_cons] at exhausted ⊢
  rw [programBy, if_neg (by exact Bool.false_ne_true), exhausted]

end

/-- The number one between parentheses of some depth. -/
def parenthesized : Nat → List Char
  | 0 => ['1']
  | depth + 1 => '(' :: (parenthesized depth ++ [')'])

/-- The pieces that the number between parentheses is cut into. -/
def parentheses : Nat → List Piece
  | 0 => [⟨some .number, ['1']⟩]
  | depth + 1 => ⟨some .leftParen, ['(']⟩ :: (parentheses depth ++ [⟨some .rightParen, [')']⟩])

/-- A text that returns the number one between parentheses. -/
def nested (depth : Nat) : String := "return " ++ String.ofList (parenthesized depth)

/-- The return of the number one. -/
def returningOne : Program := [.mk (some 1) (.returns (some (.number (Number.literal ['1']))))]

/-- Parentheses leave no trace in the tree. -/
lemma readsAs_parenthesized (depth : Nat) :
    ReadsAs (.operand 0 (.number (Number.literal ['1']))) (parenthesized depth)
      (parentheses depth) := by
  induction depth with
  | zero =>
    refine (ReadsAs.digits ?_).mono (Nat.zero_le _)
    exact Terminal.mem_number.2 (.inl (mem_someOf.2 ⟨List.cons_ne_nil _ _, List.all_eq_true.1 rfl⟩))
  | succ depth ih => exact ih.grouped

/-- There is a piece for each parenthesis and for the number. -/
lemma length_parentheses (depth : Nat) : (parentheses depth).length = 2 * depth + 1 := by
  induction depth with
  | zero => rfl
  | succ depth ih =>
    rw [parentheses, List.length_cons, List.length_append, ih, List.length_singleton]
    omega

/-- No more tokens are found than there are pieces. -/
lemma length_tokensAt_le (position : Position) (pieces : List Piece) :
    (tokensAt position pieces).length ≤ pieces.length := by
  induction pieces generalizing position with
  | nil => exact Nat.le_refl 0
  | cons piece rest ih =>
    have le := ih (position.advance piece.text)
    unfold tokensAt
    cases piece.kind with
    | none => exact Nat.le_succ_of_le le
    | some => exact Nat.succ_le_succ le

/-- The number is behind as many opening parentheses as there are around it. -/
lemma exists_opening (depth : Nat) (position : Position) (pieces : List Piece) :
    ∃ opening others, tokensAt position (parentheses depth ++ pieces) = opening ++ others ∧
      (∀ t ∈ opening, t.kind = .leftParen) ∧ opening.length = depth := by
  induction depth generalizing position pieces with
  | zero => exact ⟨[], _, rfl, List.forall_mem_nil _, rfl⟩
  | succ depth ih =>
    obtain ⟨opening, others, split, each, length⟩ :=
      ih (position.advance ['(']) (⟨some .rightParen, [')']⟩ :: pieces)
    refine ⟨⟨.leftParen, String.ofList ['('], position⟩ :: opening, others, ?_,
      List.forall_mem_cons.2 ⟨rfl, each⟩, by rw [List.length_cons, length]⟩
    rw [List.cons_append, ← split, parentheses, List.cons_append, tokensAt_cons,
      List.append_assoc, List.singleton_append]

/-- The pieces of a line with the text that returns the number. -/
def nestedPieces (depth : Nat) : List Piece :=
  ⟨some .returnWord, "return".toList⟩ :: ⟨none, [' ']⟩ :: (parentheses depth ++ [⟨none, ['\n']⟩])

section
variable {depth room : Nat}

/-- A line with the text is cut into its pieces. -/
lemma tiling_nested (nests : 0 < depth) :
    Tiling (nested depth ++ "\n").toList (nestedPieces depth) [] := by
  obtain ⟨depth, rfl⟩ := Nat.exists_eq_add_of_lt nests
  rw [Nat.zero_add]
  -- The pieces are put together from the last to the first, as each depends on what follows it.
  have feed : Tiling ['\n'] [⟨none, ['\n']⟩] [] :=
    Tiling.cons_iff.2 ⟨[], rfl, Tiling.nil_iff.2 rfl⟩
  have value := (readsAs_parenthesized depth).cut_between '(' ')' (fun _ => rfl) (fun _ => rfl)
    (by decide) feed
  have blank := Tiling.cons_iff.2 ⟨_, piece?_of_blank (by rintro _ ⟨⟩; decide), value⟩
  have word : "return".toList ∈ (Terminal.token .name).language :=
    Terminal.mem_name_of_all rfl rfl
  have whole : Tiling _ (⟨some .returnWord, "return".toList⟩ :: _) _ :=
    Tiling.cons_iff.2 ⟨_, piece?_of_word word (by rintro _ ⟨⟩; rfl), blank⟩
  simpa [nested, nestedPieces, parenthesized, parentheses] using whole

/-- The tokens of a line with the text. -/
lemma tokenize_nested (nests : 0 < depth) :
    tokenize (nested depth ++ "\n") = .ok (tokensAt .start (nestedPieces depth)) :=
  tokenize_of_cut (cut_eq_iff.2 ⟨tiling_nested nests, unmatched_nil⟩)

/-- Where there is room enough parentheses make no difference. -/
lemma parse_nested (nests : 0 < depth) : parse (nested depth ++ "\n") = .ok returningOne := by
  have value := (readsAs_parenthesized depth).read false ⟨1, 8⟩
  have returned : Derives false (.statement _)
      (⟨.returnWord, "return", .start⟩ :: tokensAt ⟨1, 8⟩ (parentheses depth)) :=
    .returns rfl value
  have derived := Derives.moreStatements returned (by simp) .noStatements
  refine parse_of_derives (tiling_nested nests) ?_
  have tokens : tokensAt .start (nestedPieces depth) =
      ⟨.returnWord, "return", .start⟩ :: tokensAt ⟨1, 8⟩ (parentheses depth) ++ [] := by
    have blanks (position : Position) : tokensAt position [⟨none, ['\n']⟩] = [] := rfl
    rw [nestedPieces, tokensAt_cons, tokensAt, tokensAt_append, blanks]
    rfl
  rw [tokens]
  exact derived

/-- Parentheses that take no more than the room there is are read. -/
theorem fits_nested (nests : 0 < depth) (enough : 2 * bound (2 * depth + 4) < room) :
    Fits room (nested depth ++ "\n") := by
  have few : (tokensAt .start (nestedPieces depth)).length ≤ 2 * depth + 4 := by
    refine (length_tokensAt_le _ _).trans (Nat.le_of_eq ?_)
    rw [nestedPieces, List.length_cons, List.length_cons, List.length_append, length_parentheses]
    rfl
  have enough : 2 * bound (tokensAt .start (nestedPieces depth)).length < room := by
    unfold bound at enough ⊢
    omega
  rw [Fits, parseWithin_of_short (tokenize_nested nests) enough]
  exact Option.some_ne_none _

/-- Parentheses that take more than the room there is are not read. -/
theorem not_fits_nested (nests : 0 < depth) (le : room ≤ 2 * depth + 3) :
    ¬ Fits room (nested depth ++ "\n") := by
  obtain ⟨opening, others, split, each, length⟩ := exists_opening depth ⟨1, 8⟩ [⟨none, ['\n']⟩]
  have scanned : tokenize (nested depth ++ "\n") =
      .ok (⟨.returnWord, "return", .start⟩ :: (opening ++ others)) := by
    rw [tokenize_nested nests, ← split]
    rfl
  refine not_fits_of_parentheses scanned rfl each ?_ (length ▸ le)
  rintro rfl
  exact Nat.ne_of_lt nests length

end

end ScriptLang
