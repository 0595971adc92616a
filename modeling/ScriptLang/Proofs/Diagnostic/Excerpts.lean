import ScriptLang.Diagnostic
import ScriptLang.Proofs.Grammar.Places

/-!
# Excerpts show where tokens stand

A diagnostic names a line by its number among the line feeds, and shows the line that has this
number among all line boundaries. Where the two are the same line, that is, where no other boundary
stands in this line or before it, the excerpt around an error marks what the error was found at, and
the excerpt around a statement shows the line of its first token (`diagnostics_show_places`).
-/

namespace ScriptLang
open Text

namespace Diagnostic

/-- A marked text. -/
def highlighted (text : List Char) : List Char :=
  "\x1b[48;5;30m\x1b[1;97m".toList ++ text ++ plain.toList

/-- Numbered lines that nothing points to. -/
def dimmed (lines : List (Nat × List Char)) : List String :=
  lines.map fun (n, text) => numbered dim n (String.ofList text)

/-- The line with a number, as it is shown, and the lines around it. -/
def around (lines : List (List Char)) (n : Nat) (shown : List Char) (context : Int) : List String :=
  dimmed (window lines (n - context) (n - 1)) ++
    numbered bright n (String.ofList shown) :: dimmed (window lines (n + 1) (n + context))

variable {lines : List (List Char)} {text : List Char} {n : Nat}

/-- Numbers a list of lines from one behind a place on. -/
def numberFrom (place : Nat) (lines : List (List Char)) : List (Nat × List Char) :=
  (lines.zipIdx place).map fun (text, place) => (place + 1, text)

/-- The numbers of lines go on behind the lines above. -/
lemma number_append (above below : List (List Char)) (text : List Char) :
    number (above ++ text :: below) =
      number above ++ (above.length + 1, text) :: numberFrom (above.length + 1) below := by
  simp [number, numberFrom, List.zipIdx_append, List.zipIdx_cons]

/-- No line has a number beyond the last. -/
lemma le_of_mem_number {line : Nat × List Char} (h : line ∈ number lines) :
    line.1 ≤ lines.length := by
  obtain ⟨⟨text, place⟩, mem, rfl⟩ := List.mem_map.1 h
  have lt : place < lines.length + 0 := List.snd_lt_of_mem_zipIdx mem
  exact lt

/-- Lines that are numbered from a place on have numbers behind it. -/
lemma lt_of_mem_numberFrom {place : Nat} {line : Nat × List Char}
    (h : line ∈ numberFrom place lines) : place < line.1 := by
  obtain ⟨⟨text, place'⟩, mem, rfl⟩ := List.mem_map.1 h
  have le : place ≤ place' := List.le_snd_of_mem_zipIdx mem
  exact Nat.lt_succ_of_le le

/-- A numbered line lies between two numbers. -/
def isWithin (first last : Int) (line : Nat × List Char) : Bool :=
  decide (first ≤ line.1 ∧ line.1 ≤ last)

/-- A window is made of the lines whose numbers lie within it. -/
lemma window_eq_filter (lines : List (List Char)) (first last : Int) :
    window lines first last = (number lines).filter (isWithin first last) := rfl

/-- A window around a line has the lines before it, the line and those behind it. -/
lemma window_around (found : lines[n]? = some text) {first last : Int} (le : first ≤ n + 1)
    (le' : n + 1 ≤ last) :
    window lines first last =
      window lines first n ++ (n + 1, text) :: window lines (n + 2) last := by
  obtain ⟨above, below, rfl, rfl⟩ : ∃ above below, lines = above ++ text :: below ∧
      above.length = n := by
    obtain ⟨lt, rfl⟩ := List.getElem?_eq_some_iff.1 found
    exact ⟨lines.take n, lines.drop (n + 1), by simp, by simp; omega⟩
  -- Before the line only the first bound tells anything, and behind it only the last one.
  have before : (number above).filter (isWithin first last) =
      (number above).filter (isWithin first above.length) := by
    refine List.filter_congr fun line mem => decide_eq_decide.2 ?_
    have := le_of_mem_number mem
    omega
  have none_before : (number above).filter (isWithin (above.length + 2) last) = [] := by
    refine List.filter_eq_nil_iff.2 fun line mem => ?_
    have := le_of_mem_number mem
    simp only [isWithin, decide_eq_true_eq]
    omega
  have behind : (numberFrom (above.length + 1) below).filter (isWithin first last) =
      (numberFrom (above.length + 1) below).filter (isWithin (above.length + 2) last) := by
    refine List.filter_congr fun line mem => decide_eq_decide.2 ?_
    have := lt_of_mem_numberFrom mem
    omega
  have none_behind :
      (numberFrom (above.length + 1) below).filter (isWithin first above.length) = [] := by
    refine List.filter_eq_nil_iff.2 fun line mem => ?_
    have := lt_of_mem_numberFrom mem
    simp only [isWithin, decide_eq_true_eq]
    omega
  have inside : isWithin first last (above.length + 1, text) = true :=
    decide_eq_true ⟨by simpa using le, by simpa using le'⟩
  have outside : ¬ isWithin first above.length (above.length + 1, text) = true := by
    simp only [isWithin, decide_eq_true_eq]
    omega
  have outside' : ¬ isWithin (above.length + 2) last (above.length + 1, text) = true := by
    simp only [isWithin, decide_eq_true_eq]
    omega
  simp only [window_eq_filter, number_append, List.filter_append, before, none_before,
    List.filter_cons_of_pos inside, List.filter_cons_of_neg outside,
    List.filter_cons_of_neg outside', behind, none_behind, List.append_nil, List.nil_append]

/-- In a window around a line, this line is bright and the others are dim. -/
lemma map_window (found : lines[n]? = some text) (shown : List Char) {context : Int}
    (pos : 0 ≤ context) {f : Nat × List Char → String}
    (own : f (n + 1, text) = numbered bright (n + 1) (String.ofList shown))
    (other : ∀ line, line.1 ≠ n + 1 → f line = numbered dim line.1 (String.ofList line.2)) :
    (window lines ((n + 1 : Nat) - context) ((n + 1 : Nat) + context)).map f =
      around lines (n + 1) shown context := by
  unfold around dimmed
  rw [window_around found (by omega) (by omega), List.map_append, List.map_cons, own]
  have above : (n + 1 : Nat) - (1 : Int) = n := by omega
  have below : ((n + 1 : Nat) : Int) + 1 = n + 2 := by omega
  rw [above, below]
  congr 1
  · refine List.map_congr_left fun line mem => other line ?_
    have := (of_decide_eq_true (List.mem_filter.1 mem).2).2
    omega
  · refine congrArg _ (List.map_congr_left fun line mem => other line ?_)
    have := (of_decide_eq_true (List.mem_filter.1 mem).2).1
    omega

/-- A line is marked where the text that was found stands in it. -/
lemma marked_eq (left right : List Char) {found : List Char} (ne : found ≠ []) :
    marked (left ++ found ++ right) (left.length + 1 : Nat) (max 1 found.length) =
      left ++ highlighted found ++ right := by
  have pos := List.length_pos_iff.2 ne
  have width : max 1 found.length = found.length := Nat.max_eq_right pos
  have start : ((left.length + 1 : Nat) : Int).toNat - 1 = left.length := rfl
  have past : left.length + found.length - left.length = found.length := Nat.add_sub_cancel_left ..
  unfold marked
  rw [if_pos (by simp only [List.length_append]; omega), width, start]
  unfold highlighted slice
  simp [List.take_append, List.drop_append, past]

/-- The excerpt around an error marks what the error was found at. -/
lemma errorContext_eq (file : Option String) {left right : List Char} {found : String}
    (shown : lines[n]? = some (left ++ found.toList ++ right)) (ne : found ≠ "") :
    errorContext file (some (n + 1 : Nat)) (some (left.length + 1 : Nat)) found lines =
      "\n" ++ "\n".intercalate (heading file (some (n + 1 : Nat)) ::
        around lines (n + 1) (left ++ highlighted found.toList ++ right) 2) ++ "\n" := by
  have nonempty : found.toList ≠ [] := fun e => ne (String.toList_eq_nil_iff.1 e)
  unfold errorContext
  dsimp only
  rw [map_window shown (left ++ highlighted found.toList ++ right) (by decide)]
  · rw [if_pos rfl, ← String.length_toList]
    exact congrArg (numbered bright _ <| String.ofList ·) (marked_eq left right nonempty)
  · exact fun line ne => if_neg (by omega)

/-- The excerpt around a statement shows the line with its number. -/
lemma sourceLines_eq (file : Option String) (found : lines[n]? = some text) {context : Int}
    (pos : 0 ≤ context) :
    sourceLines file (some (n + 1 : Nat)) lines context =
      heading file (some (n + 1 : Nat)) ++ "\n" ++
        "\n".intercalate (around lines (n + 1) text context) ++ "\n" := by
  obtain ⟨lt, _⟩ := List.getElem?_eq_some_iff.1 found
  unfold sourceLines
  dsimp only
  rw [if_pos (by omega), map_window found text pos]
  · exact congrArg (numbered · _ _) (if_pos rfl)
  · intro line ne
    exact congrArg (numbered · _ _) (if_neg (by omega))

end Diagnostic

open Diagnostic

/-- What ends with no separator does not end with a carriage return. -/
lemma StandsAt.ne_return {source text : List Char} {position : Position}
    (h : StandsAt source text position) (left : List Char) :
    ∀ c ∈ (left ++ text).getLast?, c ≠ '\r' := by
  obtain ⟨c, head, _⟩ := h.starts
  obtain ⟨cs, rfl⟩ := List.head?_eq_some_iff.1 head
  rw [List.getLast?_append_cons]
  rintro _ last rfl
  cases h.ends '\r' last

/-- The excerpt around an error of the text marks what the error was found at, where it stands in
its line. -/
lemma errorContext_of_parse {source : String} {e : SyntaxError} (failed : parse source = .error e)
    (ne : e.found ≠ "") (single : '\n' ∉ e.found.toList)
    (whole : WholeUpTo source.toList e.position.line) (file : Option String) :
    ∃ line left right, (feedLines source.toList)[e.position.line - 1]? = some line ∧
      withoutReturn line = left ++ e.found.toList ++ right ∧
      e.position.column = left.length + 1 ∧
      errorContext file (some e.position.line) (some e.position.column) e.found
          (lines source.toList) =
        "\n" ++ "\n".intercalate (heading file (some e.position.line) ::
          around (lines source.toList) e.position.line
            (left ++ highlighted e.found.toList ++ right) 2) ++ "\n" := by
  have stands := stands_of_parse_error failed ne
  obtain ⟨n, left, rest, place, line⟩ := stands.feedLine
  have plain : ∀ c ∈ e.found.toList, decide (c ≠ '\n') = true :=
    fun c mem => decide_eq_true fun feed => single (feed ▸ mem)
  rw [List.takeWhile_append_of_pos plain, ← List.append_assoc] at line
  have cut := withoutReturn_append (stands.ne_return left) (rest.takeWhile (· ≠ '\n'))
  have nonempty : left ++ e.found.toList ++ rest.takeWhile (· ≠ '\n') ≠ [] :=
    List.append_ne_nil_of_left_ne_nil (List.append_ne_nil_of_right_ne_nil left stands.ne_nil) _
  rw [place] at whole ⊢
  have shown := lines_getElem? whole line nonempty
  rw [cut] at shown
  exact ⟨_, left, _, line, cut, rfl, errorContext_eq file shown ne⟩

/-- The excerpt around a statement shows the line of its first token. -/
lemma sourceLines_of_parse {source : String} {first : Token}
    (stands : StandsAt source.toList first.text.toList first.position)
    (whole : WholeUpTo source.toList first.position.line) (file : Option String) {context : Int}
    (pos : 0 ≤ context) :
    ∃ line, (feedLines source.toList)[first.position.line - 1]? = some line ∧
      sourceLines file (some first.position.line) (lines source.toList) context =
        heading file (some first.position.line) ++ "\n" ++ "\n".intercalate
          (around (lines source.toList) first.position.line (withoutReturn line) context) ++
          "\n" := by
  obtain ⟨n, left, rest, place, line⟩ := stands.feedLine
  obtain ⟨c, head, plain⟩ := stands.starts
  obtain ⟨cs, text⟩ := List.head?_eq_some_iff.1 head
  have ne : c ≠ '\n' := by
    rintro rfl
    cases plain
  rw [text, List.cons_append, List.takeWhile_cons_of_pos (by simpa using ne)] at line
  rw [place] at whole ⊢
  have shown := lines_getElem? whole line (List.append_ne_nil_of_right_ne_nil left (by simp))
  exact ⟨_, line, sourceLines_eq file shown pos⟩

/-- Diagnostics show the places that tokens have by the line feeds before them, as long as no other
line boundary stands in the line or before it. For an error at some text that is in one line they
mark exactly this text, where it stands in its line, and for a statement they show the line of its
first token. -/
theorem diagnostics_show_places (source : String) (file : Option String) :
    (∀ e, parse source = .error e → e.found ≠ "" → '\n' ∉ e.found.toList →
      WholeUpTo source.toList e.position.line →
      ∃ line left right, (feedLines source.toList)[e.position.line - 1]? = some line ∧
        withoutReturn line = left ++ e.found.toList ++ right ∧
        e.position.column = left.length + 1 ∧
        errorContext file (some e.position.line) (some e.position.column) e.found
            (lines source.toList) =
          "\n" ++ "\n".intercalate (heading file (some e.position.line) ::
            around (lines source.toList) e.position.line
              (left ++ highlighted e.found.toList ++ right) 2) ++ "\n") ∧
    ∀ program, parse source = .ok program →
      ∃ tokens, tokenize source = .ok tokens ∧
        ∀ l s, Node.statement l s ∈ Statement.allNodes false program →
          ∃ first rest, first :: rest <:+: tokens ∧ s.ReadFrom l (first :: rest) ∧
            s.line = some first.position.line ∧
            StandsAt source.toList first.text.toList first.position ∧
            (WholeUpTo source.toList first.position.line → ∀ context, 0 ≤ context →
              ∃ line, (feedLines source.toList)[first.position.line - 1]? = some line ∧
                sourceLines file s.line (lines source.toList) context =
                  heading file s.line ++ "\n" ++ "\n".intercalate
                    (around (lines source.toList) first.position.line (withoutReturn line)
                      context) ++ "\n") := by
  refine ⟨fun e failed ne single whole => errorContext_of_parse failed ne single whole file,
    fun program parsed => ?_⟩
  obtain ⟨tokens, scanned, derived⟩ := derives_of_parse parsed
  refine ⟨tokens, scanned, fun l s mem => ?_⟩
  obtain ⟨ts, among, read⟩ := derived.coveredBy l s mem
  obtain ⟨first, rest, rfl, line⟩ := read.line
  have stands := standsAt_of_tokenize scanned (among.subset List.mem_cons_self)
  refine ⟨first, rest, among, read, line, stands, fun whole context pos => ?_⟩
  rw [line]
  exact sourceLines_of_parse stands whole file pos

instance (line : List Char) : Decidable (IsWhole line) := List.decidableBAll _ (withoutReturn line)

instance (text : List Char) (n : Nat) : Decidable (WholeUpTo text n) :=
  List.decidableBAll _ ((feedLines text).take n)

/-- A loop that ends in its first round. -/
def briefLoop : String := "loop \x7b\n  break\n\x7d\n"

/-- There is a statement on the second line. -/
lemma briefLoop_second : ∃ program, parse briefLoop = .ok program ∧
    ∃ l s, Node.statement l s ∈ Statement.allNodes false program ∧ s.line = some 2 := by
  let onSecondLine : Node → Bool
    | .statement _ s => s.line = some 2
    | .expression _ => false
  have check : (parse briefLoop).toOption.any
      (fun program => (Statement.allNodes false program).any onSecondLine) = true := by
    decide +kernel
  generalize parse briefLoop = read at check
  cases read with
  | error => cases check
  | ok program =>
    obtain ⟨node, mem, second⟩ := List.any_eq_true.1 check
    cases node with
    | statement l s => exact ⟨program, rfl, l, s, mem, of_decide_eq_true second⟩
    | expression => cases second

/-- A declaration without a name, behind a comment that ends with some character. -/
def nameless (last : Char) : String := "-- page 1" ++ last.toString ++ "\nlet = 2\n"

/-- The error in it. -/
def namelessError : SyntaxError := .atToken (.unexpected (some .name)) ⟨.assign, "=", ⟨2, 5⟩⟩

/-- A check tells which error a text was read to. -/
lemma eq_error_of_check {read : Except SyntaxError Program} {e : SyntaxError}
    (check : (match read with | .error e' => decide (e' = e) | .ok _ => false) = true) :
    read = .error e := by
  cases read with
  | error => exact congrArg _ (of_decide_eq_true check)
  | ok => cases check

/-- The sign after a comment without further line boundaries is marked, and the jump in a loop is
shown in its line. -/
theorem plain_lines_are_shown :
    (∃ left right, errorContext none (some 2) (some 5) "=" (lines (nameless '.').toList) =
        "\n" ++ "\n".intercalate (heading none (some 2) ::
          around (lines (nameless '.').toList) 2 (left ++ highlighted ['='] ++ right) 2) ++ "\n") ∧
      ∃ line, (feedLines briefLoop.toList)[1]? = some line ∧
        sourceLines none (some 2) (lines briefLoop.toList) 0 =
          heading none (some 2) ++ "\n" ++ "\n".intercalate
            (around (lines briefLoop.toList) 2 (withoutReturn line) 0) ++ "\n" := by
  constructor
  · have failed : parse (nameless '.') = .error namelessError :=
      eq_error_of_check (by decide +kernel)
    obtain ⟨_, left, right, _, _, _, shown⟩ := (diagnostics_show_places (nameless '.') none).1
      namelessError failed (by decide) (by decide) (by decide +kernel)
    exact ⟨left, right, shown⟩
  · obtain ⟨program, parsed, l, s, mem, second⟩ := briefLoop_second
    obtain ⟨_, _, each⟩ := (diagnostics_show_places briefLoop none).2 program parsed
    obtain ⟨first, _, _, _, place, _, shown⟩ := each l s mem
    have line : first.position.line = 2 := by
      have same := Option.some.inj (place.symm.trans second)
      omega
    rw [line, second] at shown
    exact shown (by decide +kernel) 0 (by decide)

/-- After a comment that ends with a form feed, the excerpt shows an empty line under the number of
the line that the sign stands in, and marks nothing. -/
theorem form_feed_hides_error :
    parse (nameless '\x0c') = .error namelessError ∧
      (feedLines (nameless '\x0c').toList)[1]? = some "let = 2".toList ∧
      errorContext none (some 2) (some 5) "=" (lines (nameless '\x0c').toList) =
        "\n" ++ "\n".intercalate [heading none (some 2), numbered dim 1 "-- page 1",
          numbered bright 2 "", numbered dim 3 "let = 2"] ++ "\n" :=
  ⟨eq_error_of_check (by decide +kernel), by decide +kernel, by decide +kernel⟩

end ScriptLang
