import Mathlib.Tactic.Common
import ScriptLang.CommandLine.Shell
import ScriptLang.Proofs.Evaluation.Room

/-!
# What a prompt does

A prompt collects lines and tries their text anew with each of them, and a text that is only
incomplete is kept. So the lines that are typed fall into chunks, each the shortest run of lines
whose text is not incomplete (`Chunks`), and what the prompt does is what its answers to the chunks
are, one after the other (`Answers`). All else that is written are prompts (`Prompted`). No text is
tried again once it ran, because the lines that wait for others never had a text that was anything
but incomplete (`Waiting`).

A text is read within the room that there is, and there may be more of it once a chunk ran. So where
a chunk ends may depend on those before it.
-/

namespace ScriptLang

namespace CommandLine.Shell

/-- The text of lines that were typed one after the other. -/
def textOf (lines : List (List Char)) : List Char := lines.flatMap (· ++ ['\n'])

/-- Lines as a script. -/
def scriptOf (lines : List (List Char)) : String := String.ofList (textOf lines)

/-- The text of lines is only incomplete. -/
def Incomplete (room : Nat) (lines : List (List Char)) : Prop :=
  ∃ e, parseWithin room (scriptOf lines) = some (.error e) ∧ e.isIncomplete

/-- Lines whose text was incomplete after each of them. -/
def Waiting (room : Nat) (lines : List (List Char)) : Prop :=
  ∀ before, before <+: lines → before ≠ [] → Incomplete room before

/-- A shortest run of lines whose text is not incomplete. -/
structure IsChunk (room : Nat) (lines : List (List Char)) : Prop where
  nonempty : lines ≠ []
  shortest : ∀ before, before <+: lines → before ≠ [] → before ≠ lines → Incomplete room before
  ready : ¬ Incomplete room lines

/-- Lines that fall into chunks, and some that are left over. -/
inductive Chunks : (room : Nat) → (lines : List (List Char)) →
    (chunks : List (List (List Char))) → (unfinished : List (List Char)) → Prop where
  | rest {room lines} : Waiting room lines → Chunks room lines [] lines
  | cons {room chunk lines chunks unfinished} : IsChunk room chunk →
    Chunks (roomAfter room (scriptOf chunk)) lines chunks unfinished →
    Chunks room (chunk ++ lines) (chunk :: chunks) unfinished

/-- A line that leaves a prompt. -/
def leaves (line : List Char) : Bool := isFarewell (Text.trim line)

/-- The lines that a prompt collects: those before a farewell that are not blank. -/
def collected (lines : List (List Char)) : List (List Char) :=
  (lines.takeWhile (!leaves ·)).filter fun line => !(Text.trim line).isEmpty

/-- The lines after a farewell. -/
def remaining (lines : List (List Char)) : List (List Char) :=
  (lines.dropWhile (!leaves ·)).tail

section
variable {room : Nat} {lines : List (List Char)}

/-- Lines are not incomplete if what their text is read as is not. -/
lemma not_incomplete {outcome : Option (Except SyntaxError Program)}
    (read : parseWithin room (scriptOf lines) = outcome)
    (other : ∀ e, outcome = some (.error e) → ¬ e.isIncomplete) : ¬ Incomplete room lines := by
  rintro ⟨e, failed, incomplete⟩
  exact other e (read.symm.trans failed) incomplete

/-- No lines are waiting lines. -/
lemma waiting_nil : Waiting room [] := fun _ h ne => absurd (List.prefix_nil.1 h) ne

/-- Lines wait with one more whose text is incomplete. -/
lemma Waiting.concat (h : Waiting room lines) {line : List Char}
    (incomplete : Incomplete room (lines ++ [line])) : Waiting room (lines ++ [line]) := by
  intro before isPrefix ne
  rcases List.prefix_concat_iff.1 isPrefix with rfl | isPrefix
  · exact incomplete
  · exact h before isPrefix ne

/-- Waiting lines and one after which their text is not incomplete are a chunk. -/
lemma Waiting.isChunk (h : Waiting room lines) {line : List Char}
    (ready : ¬ Incomplete room (lines ++ [line])) : IsChunk room (lines ++ [line]) where
  nonempty := by simp
  shortest before isPrefix ne proper := by
    rcases List.prefix_concat_iff.1 isPrefix with rfl | isPrefix
    · exact absurd rfl proper
    · exact h before isPrefix ne
  ready := ready

/-- Waiting lines do not begin with a chunk. -/
lemma Waiting.not_isChunk {chunk : List (List Char)} (h : Waiting room (chunk ++ lines)) :
    ¬ IsChunk room chunk := fun first =>
  first.ready (h chunk (List.prefix_append chunk lines) first.nonempty)

/-- A chunk that begins another is that one. -/
lemma IsChunk.eq_of_prefix {chunk chunk' : List (List Char)} (h : IsChunk room chunk)
    (h' : IsChunk room chunk') (isPrefix : chunk <+: chunk') : chunk = chunk' := by
  by_contra ne
  exact h.ready (h'.shortest chunk isPrefix h.nonempty ne)

/-- Lines begin with one chunk at most. -/
lemma IsChunk.eq_of_append {chunk chunk' lines' : List (List Char)} (h : IsChunk room chunk)
    (h' : IsChunk room chunk') (same : chunk ++ lines = chunk' ++ lines') : chunk = chunk' := by
  rcases List.prefix_or_prefix_of_prefix ⟨_, same⟩ ⟨_, rfl⟩ with isPrefix | isPrefix
  · exact h.eq_of_prefix h' isPrefix
  · exact (h'.eq_of_prefix h isPrefix).symm

/-- There is only one way to split lines. -/
lemma Chunks.unique {chunks chunks' : List (List (List Char))}
    {unfinished unfinished' : List (List Char)} (h : Chunks room lines chunks unfinished)
    (h' : Chunks room lines chunks' unfinished') :
    chunks' = chunks ∧ unfinished' = unfinished := by
  induction h generalizing chunks' with
  | rest waiting =>
    cases h' with
    | rest => exact ⟨rfl, rfl⟩
    | cons first => exact absurd first waiting.not_isChunk
  | @cons room chunk lines chunks unfinished first _ ih =>
    generalize same : chunk ++ lines = all at h'
    cases h' with
    | rest waiting =>
      subst same
      exact absurd first waiting.not_isChunk
    | cons first' others =>
      obtain rfl := first.eq_of_append first' same
      obtain rfl := List.append_cancel_left same
      obtain ⟨rfl, rfl⟩ := ih others
      exact ⟨rfl, rfl⟩

end

/-- What a prompt writes about how a script ended. -/
def reply (text : String) : Except Problem (Option Value) → List Effect
  | .ok (some value) => [.write .output ("\x1b[90m>>>\x1b[0m " ++ value.echo ++ "\n")]
  | .ok none => []
  | .error problem => [.write .error (notice promptFile text problem).text]

/-- What the answers to chunks are: one that is not well formed is refused, one that there is no
room for is a fault, and all others run in the session, each where the one before it ended. -/
inductive Answers (flags : Flags) : (chunks : List (List (List Char))) →
    (engine : Engine) → (room : Nat) → (totals : Option Statistics) →
    (engine' : Engine) → (room' : Nat) → (totals' : Option Statistics) →
    (effects : List Effect) → Prop where
  | done {engine room totals} : Answers flags [] engine room totals engine room totals []
  | refused {chunk chunks engine room totals engine' room' totals' effects} {e : SyntaxError} :
    parseWithin room (scriptOf chunk) = some (.error e) →
    Answers flags chunks engine room totals engine' room' totals' effects →
    Answers flags (chunk :: chunks) engine room totals engine' room' totals'
      (reply (scriptOf chunk) (.error (.malformed e)) ++ effects)
  | faulted {chunk chunks engine room totals engine' room' totals' effects} :
    parseWithin room (scriptOf chunk) = none →
    Answers flags chunks engine room totals engine' room' totals' effects →
    Answers flags (chunk :: chunks) engine room totals engine' room' totals'
      (reply (scriptOf chunk) (.error (.failed (.fault .stackExhausted))) ++ effects)
  | executed {chunk chunks engine room totals report between engine' room' totals' effects}
    {program : Program} :
    parseWithin room (scriptOf chunk) = some (.ok program) →
    engine.execute .standard program ⟨flags.verbosity, totals, true⟩ = (report, between) →
    Answers flags chunks between (max room fullRoom) report.statistics engine' room' totals'
      effects →
    Answers flags (chunk :: chunks) engine room totals engine' room' totals'
      (report.events.map effectOf ++ reply (scriptOf chunk) report.outcome ++ effects)

/-- What is done at a prompt, with the prompts that are shown in between. -/
inductive Prompted : (effects shown : List Effect) → Prop where
  | nothing : Prompted [] []
  | act {effects shown} (effect : Effect) : Prompted effects shown →
    Prompted (effect :: effects) (effect :: shown)
  | prompt {effects shown} (source : List Char) : Prompted effects shown →
    Prompted effects (.write .output (promptText source) :: shown)

/-- More effects may stand before prompts. -/
lemma Prompted.append {effects shown : List Effect} (h : Prompted effects shown)
    (more : List Effect) : Prompted (more ++ effects) (more ++ shown) := by
  induction more with
  | nil => exact h
  | cons effect more ih => exact .act effect ih

end CommandLine.Shell

namespace CommandLine

/-- A console where more was done. -/
def Console.did (c : Console) (effects : List Effect) : Console :=
  { c with done := effects.reverse ++ c.done }

/-- Effects that are done one after the other are done together. -/
lemma Console.did_did (c : Console) (first second : List Effect) :
    (c.did first).did second = c.did (first ++ second) := by
  unfold did
  rw [List.reverse_append, List.append_assoc]

end CommandLine

/-- What a script that ran comes to is no error in its text. -/
lemma Engine.outcome_execute_ne_malformed (engine : Engine) (limits : Limits) (program : Program)
    (options : Options) (e : SyntaxError) :
    (engine.execute limits program options).1.outcome ≠ .error (.malformed e) := by
  unfold execute
  dsimp only
  split
  case h_1 => exact nofun
  case h_2 stop _ _ => cases stop <;> exact nofun

namespace CommandLine.Shell

section
variable {α β : Type} {act : Shell α} {f : α → Shell β} {c c' : Console}

/-- Behind a part that came to its end the next goes on. -/
lemma bind_of_ok {a : α} (h : act c = .ok a c') : (act >>= f) c = f a c' := by
  change EStateM.bind _ _ c = _
  unfold EStateM.bind
  rw [h]

/-- Behind a part that ended with a status nothing is done. -/
lemma bind_of_error {status : Nat} (h : act c = .error status c') :
    (act >>= f) c = .error status c' := by
  change EStateM.bind _ _ c = _
  unfold EStateM.bind
  rw [h]

end

variable (flags : Flags) {source line : List Char} {rest : List (List Char)} {c : Console}

/-- What a script that is run does to the console. -/
lemma run_apply {interactive : Bool} {text : String} {report : Report} {engine : Engine}
    {room : Nat} (h : c.engine.runWithin .standard c.room text
      ⟨flags.verbosity, c.totals, interactive⟩ = (report, engine, room)) :
    run flags interactive text c = .ok report.outcome
      ({ c with engine, room, totals := report.statistics }.did
        (report.events.map effectOf)) := by
  have opened : run flags interactive text c =
      let ran := c.engine.runWithin .standard c.room text ⟨flags.verbosity, c.totals, interactive⟩
      .ok ran.1.outcome ({ c with
        engine := ran.2.1
        room := ran.2.2
        totals := ran.1.statistics }.did (ran.1.events.map effectOf)) := rfl
  rw [opened, h]

/-- A text that is not well formed leaves the console as it is. -/
lemma run_of_malformed {interactive : Bool} {text : String} {e : SyntaxError}
    (h : parseWithin c.room text = some (.error e)) :
    run flags interactive text c = .ok (.error (.malformed e)) c :=
  run_apply flags (Engine.runWithin_of_malformed h)

/-- A text that there is no room for leaves the console as it is. -/
lemma run_of_none {interactive : Bool} {text : String} (h : parseWithin c.room text = none) :
    run flags interactive text c = .ok (.error (.failed (.fault .stackExhausted))) c :=
  run_apply flags (Engine.runWithin_of_none h)

/-- A text that is well formed runs, and makes room. -/
lemma run_of_program {interactive : Bool} {text : String} {program : Program} {report : Report}
    {engine : Engine} (h : parseWithin c.room text = some (.ok program))
    (ran : c.engine.execute .standard program ⟨flags.verbosity, c.totals, interactive⟩ =
      (report, engine)) :
    run flags interactive text c = .ok report.outcome
      ({ c with engine, room := max c.room fullRoom, totals := report.statistics }.did
        (report.events.map effectOf)) := by
  refine run_apply flags ?_
  rw [Engine.runWithin_of_program h, ran]

/-- A try at a text that is only incomplete leaves everything as it is. -/
lemma runTyped_of_incomplete {e : SyntaxError}
    (h : parseWithin c.room (String.ofList source) = some (.error e))
    (incomplete : e.isIncomplete) : runTyped flags source c = .ok source c := by
  unfold runTyped
  rw [bind_of_ok (run_of_malformed flags h)]
  dsimp only
  rw [if_pos incomplete]
  rfl

/-- A text that is not well formed is answered by its error. -/
lemma runTyped_of_malformed {e : SyntaxError}
    (h : parseWithin c.room (String.ofList source) = some (.error e))
    (malformed : ¬ e.isIncomplete) :
    runTyped flags source c =
      .ok [] (c.did (reply (String.ofList source) (.error (.malformed e)))) := by
  unfold runTyped
  rw [bind_of_ok (run_of_malformed flags h)]
  dsimp only
  rw [if_neg malformed]
  rfl

/-- A text that there is no room for is answered by a fault. -/
lemma runTyped_of_none (h : parseWithin c.room (String.ofList source) = none) :
    runTyped flags source c = .ok [] (c.did
      (reply (String.ofList source) (.error (.failed (.fault .stackExhausted))))) := by
  unfold runTyped
  rw [bind_of_ok (run_of_none flags h)]
  rfl

/-- A text that is well formed is answered by what it does and how it ends. -/
lemma runTyped_of_program {program : Program} {report : Report} {engine : Engine}
    (h : parseWithin c.room (String.ofList source) = some (.ok program))
    (ran : c.engine.execute .standard program ⟨flags.verbosity, c.totals, true⟩ =
      (report, engine)) :
    runTyped flags source c =
      .ok [] ({ c with engine, room := max c.room fullRoom, totals := report.statistics }.did
        (report.events.map effectOf ++ reply (String.ofList source) report.outcome)) := by
  have wellFormed (e : SyntaxError) : report.outcome ≠ .error (.malformed e) := by
    have outcome := c.engine.outcome_execute_ne_malformed .standard program
      ⟨flags.verbosity, c.totals, true⟩ e
    rwa [ran] at outcome
  unfold runTyped
  rw [bind_of_ok (run_of_program flags h ran), ← Console.did_did]
  dsimp only
  match outcome : report.outcome with
  | .ok none => rfl
  | .ok (some value) => rfl
  | .error (.malformed e) => exact absurd outcome (wellFormed e)
  | .error (.failed failure) => rfl
  | .error .unfinished => rfl

/-- A prompt shows itself and reads a line: a blank one, a farewell, or one that is typed. -/
lemma readLines_cons : readLines flags source (line :: rest) c =
    (if (Text.trim line).isEmpty then readLines flags source rest
      else if leaves line then modify fun c => { c with lines := rest }
      else do
        let source ← runTyped flags (source ++ line ++ ['\n'])
        readLines flags source rest) (c.did [.write .output (promptText source)]) := by
  rw [readLines]
  rfl

/-- A line that is tried. -/
lemma readLines_typed (filled : ¬ (Text.trim line).isEmpty) (stays : ¬ leaves line)
    {kept : List Char} {c' : Console}
    (typed : runTyped flags (source ++ line ++ ['\n'])
      (c.did [.write .output (promptText source)]) = .ok kept c') :
    readLines flags source (line :: rest) c = readLines flags kept rest c' := by
  rw [readLines_cons, if_neg filled, if_neg stays, bind_of_ok typed]

/-- What is written when a prompt ends: a line feed after the last line, if none was a farewell. -/
def closing (lines : List (List Char)) : List Effect :=
  if lines.any leaves then [] else [.write .output "\n"]

/-- A line more is a line more of the text. -/
lemma textOf_concat (lines : List (List Char)) (line : List Char) :
    textOf (lines ++ [line]) = textOf lines ++ line ++ ['\n'] := by
  simp [textOf]

/-- A blank line is no farewell. -/
lemma not_leaves_of_blank (blank : (Text.trim line).isEmpty) : ¬ leaves line := by
  unfold leaves
  rw [List.isEmpty_iff.1 blank]
  exact Bool.false_ne_true

/-- A blank line is not collected. -/
lemma collected_of_blank (blank : (Text.trim line).isEmpty) :
    collected (line :: rest) = collected rest := by
  simp [collected, not_leaves_of_blank blank, blank]

/-- A line that was typed is collected. -/
lemma collected_of_typed (filled : ¬ (Text.trim line).isEmpty) (stays : ¬ leaves line) :
    collected (line :: rest) = line :: collected rest := by
  simp [collected, stays, filled]

/-- Nothing is collected from a farewell on. -/
lemma collected_of_leaves (farewell : leaves line) : collected (line :: rest) = [] := by
  simp [collected, farewell]

/-- Before the farewell no line remains unread. -/
lemma remaining_of_not_leaves (stays : ¬ leaves line) :
    remaining (line :: rest) = remaining rest := by
  simp [remaining, stays]

/-- What remains unread is behind the farewell. -/
lemma remaining_of_leaves (farewell : leaves line) : remaining (line :: rest) = rest := by
  simp [remaining, farewell]

/-- How the prompt closes is told by the lines that follow. -/
lemma closing_of_not_leaves (stays : ¬ leaves line) : closing (line :: rest) = closing rest := by
  simp [closing, stays]

/-- A farewell closes the prompt without a line feed. -/
lemma closing_of_leaves (farewell : leaves line) : closing (line :: rest) = [] := by
  simp [closing, farewell]

/-- What reading lines comes to while others wait: they fall into chunks together, the chunks are
answered, and all else that is written are prompts. -/
def Reads (pending lines : List (List Char)) (c : Console) : Prop :=
  ∃ chunks unfinished engine room totals effects shown,
    Chunks c.room (pending ++ collected lines) chunks unfinished ∧
    Answers flags chunks c.engine c.room c.totals engine room totals effects ∧
    Prompted (effects ++ closing lines) shown ∧
    readLines flags (textOf pending) lines c =
      .ok () ({ c with engine, room, totals, lines := remaining lines }.did shown)

section
variable {flags} {pending : List (List Char)}

/-- Nothing is answered if no lines are added to those that wait. -/
lemma Reads.of_nothing {lines : List (List Char)} (waiting : Waiting c.room pending)
    (nothing : collected lines = []) {shown : List Effect}
    (prompted : Prompted (closing lines) shown)
    (read : readLines flags (textOf pending) lines c =
      .ok () ({ c with lines := remaining lines }.did shown)) : Reads flags pending lines c := by
  refine ⟨[], pending, c.engine, c.room, c.totals, [], shown, ?_, .done, prompted, read⟩
  rw [nothing, List.append_nil]
  exact .rest waiting

/-- A line after which others wait. -/
lemma Reads.of_waiting {pending' : List (List Char)} (stays : ¬ leaves line)
    (collects : pending' ++ collected rest = pending ++ collected (line :: rest))
    (read : readLines flags (textOf pending) (line :: rest) c =
      readLines flags (textOf pending') rest
        (c.did [.write .output (promptText (textOf pending))]))
    (h : Reads flags pending' rest (c.did [.write .output (promptText (textOf pending))])) :
    Reads flags pending (line :: rest) c := by
  obtain ⟨chunks, unfinished, engine, room, totals, effects, shown, split, answers, prompted,
    ends⟩ := h
  rw [collects] at split
  refine ⟨chunks, unfinished, engine, room, totals, effects,
    .write .output (promptText (textOf pending)) :: shown, split, answers, ?_, ?_⟩
  · rw [closing_of_not_leaves stays]
    exact prompted.prompt _
  · rw [read, ends, remaining_of_not_leaves stays]
    exact congrArg (EStateM.Result.ok ())
      (Console.did_did { c with engine, room, totals, lines := remaining rest } _ shown)

/-- A line that makes a chunk of those that wait. -/
lemma Reads.of_chunk {engine : Engine} {room : Nat} {totals : Option Statistics}
    {answer : List Effect} (filled : ¬ (Text.trim line).isEmpty) (stays : ¬ leaves line)
    (chunk : IsChunk c.room (pending ++ [line]))
    (made : roomAfter c.room (scriptOf (pending ++ [line])) = room)
    (step : ∀ {chunks engine' room' totals' effects},
      Answers flags chunks engine room totals engine' room' totals' effects →
      Answers flags ((pending ++ [line]) :: chunks) c.engine c.room c.totals engine' room' totals'
        (answer ++ effects))
    (typed : runTyped flags (textOf (pending ++ [line]))
      (c.did [.write .output (promptText (textOf pending))]) =
        .ok [] ({ c with engine, room, totals }.did
          (.write .output (promptText (textOf pending)) :: answer)))
    (h : Reads flags [] rest ({ c with engine, room, totals }.did
      (.write .output (promptText (textOf pending)) :: answer))) :
    Reads flags pending (line :: rest) c := by
  obtain ⟨chunks, unfinished, engine', room', totals', effects, shown, split, answers, prompted,
    ends⟩ := h
  refine ⟨(pending ++ [line]) :: chunks, unfinished, engine', room', totals', answer ++ effects,
    .write .output (promptText (textOf pending)) :: answer ++ shown, ?_, step answers, ?_, ?_⟩
  · rw [collected_of_typed filled stays, List.append_cons]
    exact .cons chunk (made ▸ split)
  · rw [closing_of_not_leaves stays, List.append_assoc]
    exact (prompted.append answer).prompt _
  · rw [textOf_concat] at typed
    rw [readLines_typed flags filled stays typed, remaining_of_not_leaves stays]
    refine ends.trans (congrArg (EStateM.Result.ok ()) ?_)
    exact Console.did_did
      { c with engine := engine', room := room', totals := totals', lines := remaining rest }
      (.write .output (promptText (textOf pending)) :: answer) shown

/-- A line that is tried: it waits with the others, or makes a chunk of them. -/
lemma Reads.of_typed (waiting : Waiting c.room pending) (filled : ¬ (Text.trim line).isEmpty)
    (stays : ¬ leaves line)
    (after : ∀ pending c, Waiting c.room pending → Reads flags pending rest c) :
    Reads flags pending (line :: rest) c := by
  let prompted := c.did [.write .output (promptText (textOf pending))]
  -- Only a text that is incomplete waits; any other is answered, and none is pending then.
  match parsed : parseWithin c.room (scriptOf (pending ++ [line])) with
  | some (.error e) =>
    by_cases incomplete : e.isIncomplete
    case pos =>
      refine .of_waiting stays ?_ ?_ (after _ _ (waiting.concat ⟨e, parsed, incomplete⟩))
      · rw [collected_of_typed filled stays, List.append_assoc]
        rfl
      · have typed : runTyped flags _ prompted = _ := runTyped_of_incomplete flags parsed incomplete
        rw [textOf_concat] at typed ⊢
        exact readLines_typed flags filled stays typed
    case neg =>
      have ready := not_incomplete parsed fun other same => by
        cases same
        exact incomplete
      have typed : runTyped flags _ prompted = _ := runTyped_of_malformed flags parsed incomplete
      rw [Console.did_did] at typed
      exact .of_chunk filled stays (waiting.isChunk ready) (roomAfter_of_malformed parsed)
        (.refused parsed) typed (after _ _ waiting_nil)
  | none =>
    have ready := not_incomplete parsed fun _ same => by cases same
    have typed : runTyped flags _ prompted = _ := runTyped_of_none flags parsed
    rw [Console.did_did] at typed
    exact .of_chunk filled stays (waiting.isChunk ready) (roomAfter_of_none parsed)
      (.faulted parsed) typed (after _ _ waiting_nil)
  | some (.ok program) =>
    have ready := not_incomplete parsed fun _ same => by cases same
    cases ran : c.engine.execute .standard program ⟨flags.verbosity, c.totals, true⟩ with
    | mk report engine =>
      have typed : runTyped flags _ prompted = _ := runTyped_of_program flags parsed ran
      have together := Console.did_did
        { c with engine, room := max c.room fullRoom, totals := report.statistics }
        [.write .output (promptText (textOf pending))] (report.events.map effectOf ++
          reply (scriptOf (pending ++ [line])) report.outcome)
      exact .of_chunk filled stays (waiting.isChunk ready) (roomAfter_of_program parsed)
        (.executed parsed ran) (typed.trans (congrArg (EStateM.Result.ok []) together))
        (after _ _ waiting_nil)

end

/-- Lines are read so whatever waits for them. -/
lemma reads (lines : List (List Char)) {pending : List (List Char)} (c : Console)
    (waiting : Waiting c.room pending) : Reads flags pending lines c := by
  induction lines generalizing pending c with
  | nil => exact .of_nothing waiting rfl (.prompt (textOf pending) (.act _ .nothing)) rfl
  | cons line rest ih =>
    by_cases filled : (Text.trim line).isEmpty
    case pos =>
      refine .of_waiting (not_leaves_of_blank filled) ?_ ?_ (ih _ waiting)
      · rw [collected_of_blank filled]
      · rw [readLines_cons, if_pos filled]
    case neg =>
      by_cases stays : leaves line
      case pos =>
        have prompted : Prompted (closing (line :: rest))
            [.write .output (promptText (textOf pending))] := by
          rw [closing_of_leaves stays]
          exact .prompt _ .nothing
        refine .of_nothing waiting (collected_of_leaves stays) prompted ?_
        rw [readLines_cons, if_neg filled, if_pos stays, remaining_of_leaves stays]
        rfl
      case neg => exact .of_typed waiting filled stays fun _ c waiting => ih c waiting

/-- What a prompt writes before it reads. -/
def greeting : Effect :=
  .write .output "pcli - Scripting language REPL; type Ctrl+C to exit.\n"

/-- A prompt runs what is typed exactly once and in order. The lines before a farewell that are not
blank fall into chunks, each the shortest run of lines whose text is not incomplete, in one way
only. What the prompt does is to answer them one after the other: each runs in the session as the
one before it left it, or is refused if it is not well formed, or is a fault if there is no room to
read it. All else that it writes are prompts, and lines that are left over do nothing, as a try at a
text that is incomplete does nothing. -/
theorem prompt_answers_chunks (flags : Flags) (c : Console) :
    (∃ chunks unfinished engine room totals effects shown,
      Chunks c.room (collected c.lines) chunks unfinished ∧
      (∀ chunks' unfinished', Chunks c.room (collected c.lines) chunks' unfinished' →
        chunks' = chunks ∧ unfinished' = unfinished) ∧
      Answers flags chunks c.engine c.room c.totals engine room totals effects ∧
      Prompted (effects ++ closing c.lines) shown ∧
      prompt flags c =
        .ok () ({ c with engine, room, totals, lines := remaining c.lines }.did
          (greeting :: shown))) ∧
    ∀ lines, Incomplete c.room lines → runTyped flags (textOf lines) c = .ok (textOf lines) c := by
  constructor
  · obtain ⟨chunks, unfinished, engine, room, totals, effects, shown, split, answers, prompted,
      ends⟩ := reads flags c.lines (c.did [greeting]) waiting_nil
    refine ⟨chunks, unfinished, engine, room, totals, effects, shown, split,
      fun _ _ other => split.unique other, answers, prompted, ?_⟩
    have begun : prompt flags c = readLines flags [] c.lines (c.did [greeting]) := rfl
    rw [begun]
    refine ends.trans (congrArg (EStateM.Result.ok ()) ?_)
    exact Console.did_did { c with engine, room, totals, lines := remaining c.lines } [greeting]
      shown
  · rintro lines ⟨e, parsed, incomplete⟩
    exact runTyped_of_incomplete flags parsed incomplete

end CommandLine.Shell

end ScriptLang
