import ScriptLang.Token.Basic
import ScriptLang.Text.Blank

/-!
# Pieces

A script is cut into pieces: tokens, comments, which run from two minus signs to the end of the
line, and separators, which are white space and semicolons. `piece?` takes the longest piece at the
start of a text, `cut` repeats it, and `tokensAt` keeps the tokens with their places. The cut ends
early at a character at which no piece starts.
-/

namespace ScriptLang.Token

/-- A letter of the English alphabet. -/
def isLetter (c : Char) : Bool := ('a' ≤ c && c ≤ 'z') || ('A' ≤ c && c ≤ 'Z')

/-- A decimal digit. -/
def isDigit (c : Char) : Bool := '0' ≤ c && c ≤ '9'

/-- A character that may start a name. -/
def isNameStart (c : Char) : Bool := isLetter c || c = '_' || c = '?'

/-- A character that may continue a name. -/
def isNamePart (c : Char) : Bool := isNameStart c || isDigit c

/-- A character that only separates tokens. -/
def isSeparator (c : Char) : Bool := Text.isBlank c || c = ';'

/-- The keywords. -/
def keywords : List (String × Kind) := [
  ("let", .letWord), ("fn", .fnWord), ("if", .ifWord), ("elif", .elifWord), ("else", .elseWord),
  ("loop", .loopWord), ("return", .returnWord), ("continue", .continueWord),
  ("break", .breakWord), ("true", .trueWord), ("false", .falseWord)]

/-- The kind of a word: a keyword's own kind, else a name. -/
def wordKind (word : String) : Kind := (keywords.lookup word).getD .name

/-- A piece of a script. One without a kind only separates tokens. -/
structure Piece where
  kind : Option Kind
  text : List Char
  deriving DecidableEq, Repr

/-- The piece of all characters at the start of a text that satisfy a condition, and the rest. -/
def spanPiece (kind : Option Kind) (p : Char → Bool) (cs : List Char) : Piece × List Char :=
  (⟨kind, cs.takeWhile p⟩, cs.dropWhile p)

/-- The word at the start of a text that starts with one, and the rest. -/
def wordPiece (cs : List Char) : Piece × List Char :=
  let word := cs.takeWhile isNamePart
  (⟨some (wordKind (String.ofList word)), word⟩, cs.dropWhile isNamePart)

/-- The number at the start of a text that starts with a digit, and the rest. A point belongs to it
only when a digit follows. -/
def numberPiece (cs : List Char) : Piece × List Char :=
  let whole := cs.takeWhile isDigit
  match cs.dropWhile isDigit with
  | '.' :: d :: rest =>
    if isDigit d then
      (⟨some .number, whole ++ '.' :: d :: rest.takeWhile isDigit⟩, rest.dropWhile isDigit)
    else (⟨some .number, whole⟩, '.' :: d :: rest)
  | rest => (⟨some .number, whole⟩, rest)

/-- A string's characters up to and including the closing quote, and what follows. A backslash takes
the next character with it, which must not be a line feed. -/
def stringTail? : List Char → Option (List Char × List Char)
  | [] => none
  | '\\' :: c :: rest =>
    if c = '\n' then none
    else (stringTail? rest).map fun (text, rest) => ('\\' :: c :: text, rest)
  | c :: rest =>
    if c = '\\' then none
    else if c = '\x22' then some ([c], rest)
    else (stringTail? rest).map fun (text, rest) => (c :: text, rest)

/-- The kind and length of the symbol at the start of a text. -/
def symbol? : List Char → Option (Kind × Nat)
  | '=' :: '=' :: _ => some (.equal, 2)
  | '!' :: '=' :: _ => some (.notEqual, 2)
  | '<' :: '=' :: _ => some (.lessEqual, 2)
  | '>' :: '=' :: _ => some (.greaterEqual, 2)
  | '&' :: '&' :: _ => some (.and, 2)
  | '|' :: '|' :: _ => some (.or, 2)
  | '=' :: _ => some (.assign, 1)
  | '!' :: _ => some (.bang, 1)
  | '<' :: _ => some (.less, 1)
  | '>' :: _ => some (.greater, 1)
  | '(' :: _ => some (.leftParen, 1)
  | ')' :: _ => some (.rightParen, 1)
  | '{' :: _ => some (.leftBrace, 1)
  | '}' :: _ => some (.rightBrace, 1)
  | '[' :: _ => some (.leftBracket, 1)
  | ']' :: _ => some (.rightBracket, 1)
  | ',' :: _ => some (.comma, 1)
  | ':' :: _ => some (.colon, 1)
  | '.' :: _ => some (.dot, 1)
  | '+' :: _ => some (.plus, 1)
  | '-' :: _ => some (.minus, 1)
  | '*' :: _ => some (.star, 1)
  | '/' :: _ => some (.slash, 1)
  | '%' :: _ => some (.percent, 1)
  | _ => none

/-- The piece at the start of a text, and the rest. -/
def piece? : List Char → Option (Piece × List Char)
  | [] => none
  | '-' :: '-' :: rest => some (spanPiece none (· ≠ '\n') ('-' :: '-' :: rest))
  | c :: rest =>
    if isNameStart c then some (wordPiece (c :: rest))
    else if isDigit c then some (numberPiece (c :: rest))
    else if isSeparator c then some (spanPiece none isSeparator (c :: rest))
    else if c = '\x22' then
      (stringTail? rest).map fun (text, rest) => (⟨some .string, c :: text⟩, rest)
    else
      (symbol? (c :: rest)).map fun (kind, length) =>
        (⟨some kind, (c :: rest).take length⟩, (c :: rest).drop length)

/-- The pieces of a text, at most `fuel` of them, and the rest in which no piece starts. -/
def cutFrom : Nat → List Char → List Piece × List Char
  | 0, cs => ([], cs)
  | fuel + 1, cs =>
    match piece? cs with
    | none => ([], cs)
    | some (piece, rest) =>
      let (pieces, rest) := cutFrom fuel rest
      (piece :: pieces, rest)

/-- The pieces of a text, and the rest in which no piece starts. Every piece takes at least one
character, so a text has no more pieces than characters. -/
def cut (cs : List Char) : List Piece × List Char := cutFrom cs.length cs

/-- The tokens among pieces that start at a place. -/
def tokensAt : Position → List Piece → List Token
  | _, [] => []
  | position, piece :: rest =>
    let tokens := tokensAt (position.advance piece.text) rest
    match piece.kind with
    | some kind => ⟨kind, String.ofList piece.text, position⟩ :: tokens
    | none => tokens

/-- The place after pieces that start at the beginning of a script. -/
def placeAfter (pieces : List Piece) : Position :=
  Position.start.advance (pieces.flatMap (·.text))

/-- The character at which no piece starts. -/
structure Unexpected where
  char : Char
  position : Position
  deriving DecidableEq, Repr

/-- The tokens of a script. -/
def scan (source : List Char) : Except Unexpected (List Token) :=
  match cut source with
  | (pieces, []) => .ok (tokensAt .start pieces)
  | (pieces, c :: _) => .error ⟨c, placeAfter pieces⟩

/-- The place after the last character of a script. -/
def endOf (source : List Char) : Position := Position.start.advance source

/-- A span and what is left of it are the whole text. -/
theorem spanPiece_append (kind : Option Kind) (p : Char → Bool) (cs : List Char) :
    (spanPiece kind p cs).1.text ++ (spanPiece kind p cs).2 = cs :=
  List.takeWhile_append_dropWhile

/-- A word and what is left of it are the whole text. -/
theorem wordPiece_append (cs : List Char) :
    (wordPiece cs).1.text ++ (wordPiece cs).2 = cs :=
  List.takeWhile_append_dropWhile

/-- A number and what is left of it are the whole text. -/
theorem numberPiece_append (cs : List Char) :
    (numberPiece cs).1.text ++ (numberPiece cs).2 = cs := by
  have whole : cs.takeWhile isDigit ++ cs.dropWhile isDigit = cs :=
    List.takeWhile_append_dropWhile
  unfold numberPiece
  split
  · rename_i d rest h
    rw [h] at whole
    split
    · simpa using whole
    · exact whole
  · exact whole

/-- The tail of a string and what is left of it are the whole text. -/
theorem stringTail?_append {cs text rest : List Char} (h : stringTail? cs = some (text, rest)) :
    text ++ rest = cs := by
  fun_induction stringTail? cs generalizing text rest with
  | case1 => cases h
  | case2 => cases h
  | case3 c tail _ ih =>
    obtain ⟨⟨t, r⟩, ht, e⟩ := Option.map_eq_some_iff.1 h
    cases e
    simp [ih ht]
  | case4 => cases h
  | case5 tail => cases h; rfl
  | case6 c tail _ _ _ ih =>
    obtain ⟨⟨t, r⟩, ht, e⟩ := Option.map_eq_some_iff.1 h
    cases e
    simp [ih ht]

/-- A piece and the rest are the text that the piece was taken from. -/
theorem piece?_append {cs rest : List Char} {piece : Piece} (h : piece? cs = some (piece, rest)) :
    piece.text ++ rest = cs := by
  unfold piece? at h
  split at h
  · cases h
  · cases h
    exact spanPiece_append ..
  · rename_i c tail _
    split at h
    · have taken := wordPiece_append (c :: tail)
      rwa [Option.some.inj h] at taken
    · split at h
      · have taken := numberPiece_append (c :: tail)
        rwa [Option.some.inj h] at taken
      · split at h
        · have taken := spanPiece_append none isSeparator (c :: tail)
          rwa [Option.some.inj h] at taken
        · split at h
          · obtain ⟨⟨t, r⟩, ht, e⟩ := Option.map_eq_some_iff.1 h
            cases e
            simp [stringTail?_append ht]
          · obtain ⟨⟨kind, length⟩, _, e⟩ := Option.map_eq_some_iff.1 h
            cases e
            exact List.take_append_drop ..

/-- The pieces and the rest are the text that was cut. -/
theorem cutFrom_append (fuel : Nat) (cs : List Char) :
    (cutFrom fuel cs).1.flatMap (·.text) ++ (cutFrom fuel cs).2 = cs := by
  induction fuel generalizing cs with
  | zero => rfl
  | succ fuel ih =>
    unfold cutFrom
    split
    · rfl
    · rename_i piece rest h
      simp [ih, piece?_append h]

end ScriptLang.Token
