import Mathlib.Data.List.DropRight
import ScriptLang.Program.Reader
import ScriptLang.Proofs.Token.LongestMatch

/-!
# Scripts in pieces

A script is covered by pieces, each of which is the longest match where it starts, up to its end or
to the first place where no terminal has a match. The pieces of a text are determined by that
(`cut_eq_iff`). What a script is scanned to can be read off them: the tokens among the pieces, each
with the number of line feeds before it for its line and the number of characters after the last of
them for its column, and the mark of the end (`words_tile_source`).
-/

namespace ScriptLang

/-- The place behind a text that a script starts with. -/
def Position.after (before : List Char) : Position where
  line := 1 + before.count '\n'
  column := 1 + (before.rtakeWhile (· ≠ '\n')).length

/-- Behind a text the place is the one after it. -/
lemma Position.start_advance (before : List Char) :
    Position.start.advance before = .after before := by
  induction before using List.reverseRecOn with
  | nil => rfl
  | append_singleton before c ih =>
    have step : Position.start.advance (before ++ [c]) = (Position.start.advance before).next c :=
      List.foldl_concat ..
    rw [step, ih]
    unfold Position.next Position.after
    by_cases feed : c = '\n'
    · simp [feed, Nat.add_assoc]
    · simp [feed, Nat.add_assoc]

namespace Token

/-- A text is covered by pieces up to a rest. Each piece is the longest match where it starts. -/
structure Tiling (cs : List Char) (pieces : List Piece) (rest : List Char) : Prop where
  covers : pieces.flatMap (·.text) ++ rest = cs
  longest : ∀ (before : List Piece) (piece : Piece) (after : List Piece),
    pieces = before ++ piece :: after → piece.IsLongestMatch (after.flatMap (·.text) ++ rest)

/-- No terminal has a match at the start of a text. -/
def Unmatched (cs : List Char) : Prop :=
  ∀ (terminal : Terminal) (text : List Char), text ∈ terminal.language → ¬ text <+: cs

/-- The token that a piece is, behind a text that a script starts with. -/
def Piece.tokenAfter? (before : List Char) (piece : Piece) : Option Token :=
  piece.kind.map fun kind => ⟨kind, String.ofList piece.text, .after before⟩

/-- The tokens among the pieces that a script starts with, each behind the pieces before it. -/
def tokensAmong (pieces : List Piece) : List Token :=
  (pieces.inits.zip pieces).filterMap fun (before, piece) =>
    piece.tokenAfter? (before.flatMap (·.text))

/-- No terminal matches the empty text. -/
lemma Terminal.ne_nil {terminal : Terminal} {text : List Char} (h : text ∈ terminal.language) :
    text ≠ [] := by
  rintro rfl
  obtain ⟨_, _, found, _⟩ := Reached.of_mem h []
  cases found

/-- At the end nothing is unmatched. -/
lemma unmatched_nil : Unmatched [] := fun _ _ mem start =>
  Terminal.ne_nil mem (List.prefix_nil.1 start)

namespace Tiling
variable {cs rest : List Char} {piece : Piece} {pieces : List Piece}

/-- No pieces cover nothing. -/
lemma nil_iff : Tiling cs [] rest ↔ cs = rest :=
  ⟨fun h => h.covers.symm, fun h => ⟨h.symm, fun _ _ _ e => by simp at e⟩⟩

/-- Pieces cover a text if the first is at its start and the others cover the rest. -/
lemma cons_iff : Tiling cs (piece :: pieces) rest ↔
    ∃ tail, piece? cs = some (piece, tail) ∧ Tiling tail pieces rest := by
  constructor
  · rintro ⟨covers, longest⟩
    refine ⟨pieces.flatMap (·.text) ++ rest, ?_, rfl, fun before other after e => ?_⟩
    · rw [← covers]
      exact piece?_eq_some_iff.2 ⟨(List.append_assoc ..).symm, longest [] piece pieces rfl⟩
    · exact longest (piece :: before) other after (congrArg _ e)
  · rintro ⟨tail, found, covers, longest⟩
    obtain ⟨rfl, first⟩ := piece?_eq_some_iff.1 found
    refine ⟨by rw [← covers, List.flatMap_cons, List.append_assoc], fun before other after e => ?_⟩
    cases before with
    | nil =>
      cases e
      rwa [covers]
    | cons _ before =>
      cases e
      exact longest before other after rfl

end Tiling

/-- Where no piece starts, none is cut. -/
lemma eq_nil_iff_tiling {cs rest : List Char} {pieces : List Piece} (stops : piece? cs = none) :
    ([], cs) = (pieces, rest) ↔ Tiling cs pieces rest ∧ piece? rest = none := by
  cases pieces with
  | nil =>
    rw [Tiling.nil_iff, Prod.mk.injEq]
    constructor
    · rintro ⟨_, rfl⟩
      exact ⟨rfl, stops⟩
    · rintro ⟨rfl, _⟩
      exact ⟨rfl, rfl⟩
  | cons piece pieces =>
    rw [Tiling.cons_iff, stops]
    exact ⟨nofun, fun ⟨⟨_, found, _⟩, _⟩ => nomatch found⟩

/-- Every piece takes a character, so there is no need for more pieces than characters. -/
lemma cutFrom_eq_iff {fuel : Nat} {cs rest : List Char} {pieces : List Piece}
    (le : cs.length ≤ fuel) :
    cutFrom fuel cs = (pieces, rest) ↔ Tiling cs pieces rest ∧ piece? rest = none := by
  induction fuel generalizing cs pieces with
  | zero =>
    obtain rfl := List.length_eq_zero_iff.1 (Nat.le_zero.1 le)
    have stops : piece? [] = none := rfl
    exact eq_nil_iff_tiling stops
  | succ fuel ih =>
    unfold cutFrom
    split
    case h_1 stops => exact eq_nil_iff_tiling stops
    case h_2 first tail found =>
      have shorter : tail.length ≤ fuel := by
        obtain ⟨terminal, _, mem⟩ := matched_of_piece? found
        have split := congrArg List.length (piece?_append found)
        have pos := List.length_pos_iff.2 (Terminal.ne_nil mem)
        rw [List.length_append] at split
        omega
      cases pieces with
      | nil =>
        rw [Tiling.nil_iff]
        refine ⟨nofun, ?_⟩
        rintro ⟨rfl, stops⟩
        exact nomatch found.symm.trans stops
      | cons piece pieces =>
        rw [Tiling.cons_iff, Prod.mk.injEq, List.cons.injEq]
        constructor
        · rintro ⟨⟨rfl, rfl⟩, rfl⟩
          obtain ⟨tiling, stops⟩ := (ih shorter).1 rfl
          exact ⟨⟨tail, found, tiling⟩, stops⟩
        · rintro ⟨⟨_, found', tiling⟩, stops⟩
          obtain ⟨rfl, rfl⟩ := Prod.mk.inj (Option.some.inj (found.symm.trans found'))
          rw [(ih shorter).2 ⟨tiling, stops⟩]
          exact ⟨⟨rfl, rfl⟩, rfl⟩

/-- The pieces of a text are those that cover it up to where no terminal has a match. -/
lemma cut_eq_iff {cs rest : List Char} {pieces : List Piece} :
    cut cs = (pieces, rest) ↔ Tiling cs pieces rest ∧ Unmatched rest := by
  unfold cut Unmatched
  rw [cutFrom_eq_iff (Nat.le_refl _), piece?_eq_none_iff]

/-- The induction is on the pieces that are left; those before them only count as text. -/
lemma tokensAt_after (before : List Char) (pieces : List Piece) :
    tokensAt (.after before) pieces = (pieces.inits.zip pieces).filterMap fun (done, piece) =>
      piece.tokenAfter? (before ++ done.flatMap (·.text)) := by
  induction pieces generalizing before with
  | nil => rfl
  | cons piece pieces ih =>
    have step : (Position.after before).advance piece.text = .after (before ++ piece.text) := by
      rw [← Position.start_advance, ← Position.start_advance]
      exact List.foldl_append.symm
    have tokens := ih (before ++ piece.text)
    simp only [List.append_assoc] at tokens
    unfold tokensAt
    rw [step, tokens]
    simp only [List.inits_cons, List.zip_cons_cons, List.zip_map_left, List.filterMap_cons,
      List.filterMap_map, List.flatMap_nil, List.append_nil, Piece.tokenAfter?]
    cases piece.kind <;> rfl

/-- From the start of a script the tokens stand at their places. -/
lemma tokensAt_start (pieces : List Piece) : tokensAt .start pieces = tokensAmong pieces :=
  tokensAt_after [] pieces

/-- The tokens of a script are those among the pieces that cover it. -/
lemma tokenize_of_cut {source : String} {pieces : List Piece}
    (h : cut source.toList = (pieces, [])) : tokenize source = .ok (tokensAt .start pieces) := by
  unfold tokenize scan
  rw [h]
  rfl

/-- The words of a script are the tokens among its pieces and the mark of its end. -/
lemma words_of_cut {source : String} {pieces : List Piece} (h : cut source.toList = (pieces, [])) :
    words source = .ok ((tokensAmong pieces).map .token ++ [.stop (.after source.toList)]) := by
  rw [← tokensAt_start, ← Position.start_advance]
  unfold words
  rw [tokenize_of_cut h]
  rfl

/-- A script that no pieces cover is refused where the next would start. -/
lemma words_of_cut_short {source : String} {pieces : List Piece} {c : Char} {rest : List Char}
    (h : cut source.toList = (pieces, c :: rest)) :
    words source = .error (.atCharacter ⟨c, .after (pieces.flatMap (·.text))⟩) := by
  rw [← Position.start_advance]
  unfold words tokenize scan
  rw [h]
  rfl

/-- A script is scanned to words if pieces cover it, and the words are the tokens among these and
the mark of the end, at their places. It is refused if pieces cover it up to a character where no
terminal has a match, and the error is found at the place of that character. -/
theorem words_tile_source (source : String) :
    (∀ ws, words source = .ok ws ↔ ∃ pieces, Tiling source.toList pieces [] ∧
      ws = (tokensAmong pieces).map .token ++ [.stop (.after source.toList)]) ∧
    ∀ e, words source = .error e ↔ ∃ pieces c rest, Tiling source.toList pieces (c :: rest) ∧
      Unmatched (c :: rest) ∧ e = .atCharacter ⟨c, .after (pieces.flatMap (·.text))⟩ := by
  have whole (pieces : List Piece) :
      Tiling source.toList pieces [] ↔ cut source.toList = (pieces, []) := by
    rw [cut_eq_iff, and_iff_left unmatched_nil]
  simp only [← and_assoc, ← cut_eq_iff, whole]
  cases h : cut source.toList with
  | mk pieces rest =>
    cases rest with
    | nil =>
      rw [words_of_cut h]
      constructor
      · intro ws
        constructor
        · rintro ⟨rfl⟩
          exact ⟨pieces, rfl, rfl⟩
        · rintro ⟨_, ⟨rfl⟩, rfl⟩
          rfl
      · exact fun e => ⟨nofun, fun ⟨_, _, _, h, _⟩ => nomatch h⟩
    | cons c rest =>
      rw [words_of_cut_short h]
      constructor
      · exact fun ws => ⟨nofun, fun ⟨_, h, _⟩ => nomatch h⟩
      · intro e
        constructor
        · rintro ⟨rfl⟩
          exact ⟨pieces, c, rest, rfl, rfl⟩
        · rintro ⟨_, _, _, ⟨rfl⟩, rfl⟩
          rfl

end Token

end ScriptLang
