import ScriptLang.Proofs.CommandLine.Prompt
import ScriptLang.Proofs.Evaluation.Independence
import ScriptLang.Proofs.Program.Nesting

/-!
# What the items of a command line do

All items of a command line run on one engine and count into the same totals. Still each does what
it does when it is the only one, since nothing that runs beside the session depends on what ran
before, as long as there is room to read it from the start. So what a command line does is what its
items do, one after the other, up to the first that stops it (`sequence_does_items`), and the totals
are the sums of what the items count.

Only room is made by one item for those behind it. An item that nests too deeply for the room at the
start is a fault when it is the only one, and may run behind another.
-/

namespace ScriptLang

namespace Statistics

/-- The counters before the first script. -/
def zero : Statistics := ⟨[("steps", 0), ("calls", 0)]⟩

/-- How often a name was counted, if statistics are kept. -/
def total (s : Option Statistics) (name : String) : Int := (s.bind (·.get? name)).getD 0

/-- Before the first script nothing was counted. -/
lemma total_zero (name : String) : total (some zero) name = 0 := by
  unfold total zero
  simp only [Option.bind_some, Bindings.get?, Bindings.find?]
  split
  · rfl
  · split
    · rfl
    · rfl

/-- A count adds one to its own name and nothing to others. -/
lemma total_count (s : Statistics) (name other : String) :
    total (some (s.count name)) other = total (some s) other + if name = other then 1 else 0 := by
  unfold total count
  rw [Option.bind_some, Bindings.get?_set]
  split
  case isTrue same => rw [same]; rfl
  case isFalse => exact (Int.add_zero _).symm

/-- Counts add to a name as often as it is among them. -/
lemma total_countAll (names : List String) (s : Statistics) (name : String) :
    total (some (s.countAll names)) name = total (some s) name + names.count name := by
  induction names generalizing s with
  | nil => exact (Int.add_zero _).symm
  | cons first rest ih =>
    have rest : total (some (s.countAll (first :: rest))) name = _ := ih (s.count first)
    rw [total_count] at rest
    by_cases same : first = name
    case pos =>
      rw [if_pos same] at rest
      rw [rest, same, List.count_cons_self]
      omega
    case neg =>
      rw [if_neg same] at rest
      rw [rest, List.count_cons_of_ne same]
      omega

end Statistics

namespace CommandLine
open Shell

/-- An item of a command line: a script with a name, whether its result is shown, and the room that
there is to read it. -/
structure Item where
  file : String
  source : String
  shown : Bool
  room : Nat

/-- The item that an action asks for, if it is one, given the room for reading and the number of the
next command. -/
def Action.item? (files : Files) (room number : Nat) : Action → Option Item
  | .file path => (files.read? path).map fun text => ⟨path, normalText text, false, room⟩
  | .command code => some ⟨commandName number, commandSource code, true, room⟩
  | .prompt => none

/-- The number of the next command after an action. -/
def Action.next (number : Nat) : Action → Nat
  | .command _ => number + 1
  | .file _ | .prompt => number

/-- The items that actions ask for, in order. What room there is for the first there is for those
behind it, and each that runs may make more. -/
inductive Itemized (files : Files) : (room number : Nat) → List Action → List Item → Prop where
  | nil {room number} : Itemized files room number [] []
  | cons {room number action rest item items} : action.item? files room number = some item →
    Itemized files (roomAfter room item.source) (action.next number) rest items →
    Itemized files room number (action :: rest) (item :: items)

namespace Item
variable (flags : Flags) (world : World) (item : Item)

/-- The report on an item that is run on an engine of its own and counts from zero. -/
def report : Report :=
  ((Engine.new (.standard world.launches)).runWithin .standard item.room item.source
    ⟨flags.verbosity, some .zero, false⟩).1

/-- What is written about how an item ended. -/
def answer : Except Problem (Option Value) → List Effect
  | .ok (some value) => if item.shown then [.write .output (value.echo ++ "\n")] else []
  | .ok none => []
  | .error problem => [.write .error (notice item.file item.source problem).text]

/-- What an item does. -/
def effects : List Effect :=
  (item.report flags world).events.map effectOf ++ item.answer (item.report flags world).outcome

/-- Whether an item fails. -/
def fails : Bool := !(item.report flags world).outcome.toBool

/-- Whether an item stops the command line: it fails, and errors are not ignored. -/
def stops : Bool := !flags.ignore && item.fails flags world

/-- How often an item counts a name. -/
def counted (name : String) : Int := Statistics.total (item.report flags world).statistics name

end Item

section
variable (flags : Flags) (world : World)

/-- The items whose turn comes: up to the first that stops the command line. -/
def due (items : List Item) : List Item :=
  items.takeWhile (!·.stops flags world) ++ (items.dropWhile (!·.stops flags world)).take 1

/-- How often items count a name together. -/
def countedIn (items : List Item) (name : String) : Int :=
  items.foldr (fun item sum => item.counted flags world name + sum) 0

/-- What is told of totals. -/
def totalsTold (steps calls : Int) : List Effect :=
  ["\n\x1b[97m\x1b[48;5;30m STATISTICS. \x1b[0m\n", totalLine "step" (Text.thousands steps),
    totalLine "call" (Text.thousands calls), totalLine "time" "0.000s"].map (.write .output)

/-- What is told at the end of items: the totals, if they are asked for, no item stopped the command
line and at least one of them did not fail. -/
def conclusion (items : List Item) : List Effect :=
  if flags.stats ∧ ¬ items.any (·.stops flags world) ∧ items.any (!·.fails flags world) then
    totalsTold (countedIn flags world items "steps") (countedIn flags world items "calls")
  else []

/-- What a command line does that asks for a sequence. -/
def sequence (arguments : List String) : Transcript :=
  performed flags world do
    runSequence flags world.files arguments
    conclude

end

section
variable {flags : Flags} {world : World} {item : Item} {rest items : List Item}

/-- What items count together is the sum over their parts. -/
lemma countedIn_append (items more : List Item) (name : String) :
    countedIn flags world (items ++ more) name =
      countedIn flags world items name + countedIn flags world more name := by
  induction items with
  | nil => exact (Int.zero_add _).symm
  | cons item rest ih => exact (congrArg _ ih).trans (Int.add_assoc ..).symm

/-- Behind an item that stops the command line none is due. -/
lemma due_of_stops (h : item.stops flags world) : due flags world (item :: rest) = [item] := by
  simp [due, h]

/-- Behind an item that does not stop the command line the others are due. -/
lemma due_of_not_stops (h : ¬ item.stops flags world) :
    due flags world (item :: rest) = item :: due flags world rest := by
  simp [due, h]

/-- The first item is always due. -/
lemma due_singleton (item : Item) : due flags world [item] = [item] := by
  by_cases stops : item.stops flags world
  · exact due_of_stops stops
  · exact due_of_not_stops stops

/-- All items are due if none stops the command line. -/
lemma due_eq_self (h : ¬ items.any (·.stops flags world)) : due flags world items = items := by
  induction items with
  | nil => rfl
  | cons item rest ih =>
    rw [List.any_cons, Bool.or_eq_true, not_or] at h
    rw [due_of_not_stops h.1, ih h.2]

end

/-- The console after items were run. -/
structure Ran (flags : Flags) (world : World) (items : List Item) (c c' : Console) : Prop where
  library : c'.engine.library = c.engine.library
  kept : c'.totals.isSome = c.totals.isSome
  counted : c.totals.isSome → ∀ name,
    Statistics.total c'.totals name =
      Statistics.total c.totals name + countedIn flags world items name
  finished : c'.finished = c.finished + items.countP (!·.fails flags world)
  done : c'.done = (items.flatMap (·.effects flags world)).reverse ++ c.done

namespace Ran
variable {flags : Flags} {world : World} {items more : List Item} {c c' c'' : Console}

/-- Without items nothing changes. -/
lemma nil : Ran flags world [] c c := ⟨rfl, rfl, fun _ _ => (Int.add_zero _).symm, rfl, rfl⟩

/-- Items in a row are run one part after the other. -/
lemma append (h : Ran flags world items c c') (h' : Ran flags world more c' c'') :
    Ran flags world (items ++ more) c c'' where
  library := h'.library.trans h.library
  kept := h'.kept.trans h.kept
  counted kept name := by
    rw [h'.counted (h.kept.trans kept), h.counted kept, Int.add_assoc, countedIn_append]
  finished := by rw [h'.finished, h.finished, List.countP_append, Nat.add_assoc]
  done := by rw [h'.done, h.done, List.flatMap_append, List.reverse_append, List.append_assoc]

/-- The console after one item. -/
lemma single {item : Item} {engine : Engine} {room : Nat} {names : List String} {finished : Nat}
    (library : engine.library = c.engine.library)
    (counted : (item.report flags world).statistics = some (Statistics.zero.countAll names))
    (counts : finished = c.finished + [item].countP (!·.fails flags world)) :
    Ran flags world [item] c ({ c with
      engine, room, finished, totals := c.totals.map (.countAll names) }.did
        (item.effects flags world)) where
  library := library
  kept := Option.isSome_map
  counted kept name := by
    obtain ⟨totals, same⟩ := Option.isSome_iff_exists.1 kept
    have own : countedIn flags world [item] name = names.count name := by
      show item.counted flags world name + 0 = _
      unfold Item.counted
      rw [counted, Statistics.total_countAll, Statistics.total_zero, Int.zero_add, Int.add_zero]
    show Statistics.total (c.totals.map (.countAll names)) name = _
    rw [own, same]
    exact Statistics.total_countAll names totals name
  finished := counts
  done := by rw [List.flatMap_singleton]; rfl

/-- After items that did not stop the command line the totals are what they counted together. -/
lemma told (h : Ran flags world items (consoleFor flags world) c)
    (goesOn : ¬ items.any (·.stops flags world)) :
    (if c.totals.isSome ∧ 0 < c.finished then
      totalsTold (Statistics.total c.totals "steps") (Statistics.total c.totals "calls")
    else []) = conclusion flags world items := by
  have stats : c.totals.isSome = flags.stats := by
    rw [h.kept]
    unfold consoleFor
    cases flags.stats <;> rfl
  have some : 0 < c.finished ↔ items.any (!·.fails flags world) := by
    rw [h.finished, List.any_eq_true]
    refine Iff.trans ?_ List.countP_pos_iff
    exact Eq.to_iff (congrArg (0 < ·) (Nat.zero_add _))
  have fromZero (asked : flags.stats) (name : String) :
      Statistics.total c.totals name = countedIn flags world items name := by
    have start : (consoleFor flags world).totals = .some .zero := if_pos asked
    rw [h.counted (start ▸ rfl), start, Statistics.total_zero, Int.zero_add]
  unfold conclusion
  by_cases concludes : flags.stats ∧ items.any (!·.fails flags world)
  case pos =>
    obtain ⟨asked, succeeded⟩ := concludes
    rw [if_pos ⟨stats.trans asked, some.2 succeeded⟩, if_pos ⟨asked, goesOn, succeeded⟩,
      fromZero asked, fromZero asked]
  case neg =>
    rw [if_neg fun h => concludes ⟨stats.symm.trans h.1, some.1 h.2⟩,
      if_neg fun h => concludes ⟨h.1, h.2.2⟩]

end Ran

namespace Shell
variable (flags : Flags) {world : World} {c : Console}

/-- On any engine with the library an item does what it does on one of its own, and adds its
counts. -/
lemma run_item (item : Item) (library : c.engine.library = .standard world.launches)
    (room : c.room = item.room) :
    ∃ names engine, engine.library = c.engine.library ∧
      (item.report flags world).statistics = some (Statistics.zero.countAll names) ∧
      run flags false item.source c = .ok (item.report flags world).outcome
        ({ c with
          engine
          room := roomAfter item.room item.source
          totals := c.totals.map (.countAll names) }.did
          ((item.report flags world).events.map effectOf)) := by
  obtain ⟨file, source, shown, available⟩ := item
  obtain rfl : c.room = available := room
  have same : c.engine.library = (Engine.new (.standard world.launches)).library := library
  obtain ⟨names, counted, told⟩ := Engine.runWithin_independent same
    (Library.standard_forgetful world.launches) .standard c.room source flags.verbosity
    (some .zero) c.totals
  let ran := c.engine.runWithin .standard c.room source ⟨flags.verbosity, c.totals, false⟩
  refine ⟨names, ran.2.1, Engine.library_runWithin, counted, ?_⟩
  have ended : ran = (_, ran.2.1, roomAfter c.room source) :=
    Prod.ext told (Prod.ext rfl Engine.room_runWithin)
  exact (run_apply flags ended).trans rfl

/-- An item is run, and stops the command line if it is one that does. -/
lemma runScript_apply (item : Item) (library : c.engine.library = .standard world.launches)
    (room : c.room = item.room) :
    ∃ c', Ran flags world [item] c c' ∧ c'.room = roomAfter item.room item.source ∧
      runScript flags item.file item.source item.shown c =
        if item.stops flags world then .error 1 c' else .ok () c' := by
  obtain ⟨names, engine, kept, counted, ran⟩ := run_item flags item library room
  unfold runScript
  rw [bind_of_ok ran]
  cases outcome : (item.report flags world).outcome with
  | ok result =>
    have succeeds : item.fails flags world = false := by
      unfold Item.fails
      rw [outcome]
      rfl
    have counts : c.finished + 1 = c.finished + [item].countP (!·.fails flags world) := by
      simp [succeeds]
    refine ⟨_, .single kept counted counts, rfl, ?_⟩
    unfold Item.stops Item.effects
    rw [succeeds, Bool.and_false, if_neg Bool.false_ne_true, outcome, ← Console.did_did]
    unfold Item.answer
    cases result with
    | none => cases item.shown <;> rfl
    | some value => cases item.shown <;> rfl
  | error problem =>
    have failed : item.fails flags world = true := by
      unfold Item.fails
      rw [outcome]
      rfl
    have counts : c.finished = c.finished + [item].countP (!·.fails flags world) := by
      simp [failed]
    refine ⟨_, .single kept counted counts, rfl, ?_⟩
    unfold Item.stops Item.effects
    rw [failed, Bool.and_true, outcome, ← Console.did_did]
    cases flags.ignore <;> rfl

/-- An item is read in the room that it is asked for in. -/
lemma room_of_item? {files : Files} {room number : Nat} {action : Action} {item : Item}
    (h : action.item? files room number = some item) : item.room = room := by
  cases action with
  | file path =>
    obtain ⟨text, _, rfl⟩ := Option.map_eq_some_iff.1 h
    rfl
  | command code =>
    cases h
    rfl
  | prompt => cases h

/-- An action that asks for an item runs it. -/
lemma act_cons {files : Files} {room number : Nat} {action : Action} {item : Item}
    (h : action.item? files room number = some item) (rest : List Action) :
    act flags files number (action :: rest) = (do
      runScript flags item.file item.source item.shown
      act flags files (action.next number) rest) := by
  cases action with
  | file path =>
    obtain ⟨text, found, rfl⟩ := Option.map_eq_some_iff.1 h
    rw [act, found]
    rfl
  | command code =>
    cases h
    rw [act]
    rfl
  | prompt => cases h

/-- Actions run the items they ask for, up to the first that stops the command line. -/
lemma act_apply {number : Nat} {actions : List Action} {items : List Item}
    (itemized : Itemized world.files c.room number actions items)
    (library : c.engine.library = .standard world.launches) :
    ∃ c', Ran flags world (due flags world items) c c' ∧ act flags world.files number actions c =
      if items.any (·.stops flags world) then .error 1 c' else .ok () c' := by
  generalize room : c.room = available at itemized
  induction itemized generalizing c with
  | nil => exact ⟨c, .nil, rfl⟩
  | @cons available number action actions item items asks _ ih =>
    have own : item.room = available := room_of_item? asks
    obtain ⟨between, first, made, ran⟩ :=
      runScript_apply flags item library (room.trans own.symm)
    rw [act_cons flags asks, List.any_cons]
    by_cases stops : item.stops flags world
    case pos =>
      rw [if_pos stops] at ran
      refine ⟨between, due_of_stops stops ▸ first, ?_⟩
      rw [bind_of_error ran, stops]
      rfl
    case neg =>
      rw [if_neg stops] at ran
      -- The next item finds the library as it was, and the room that it is asked for in.
      obtain ⟨c', others, ended⟩ := ih (first.library.trans library) (own ▸ made)
      refine ⟨c', due_of_not_stops stops ▸ first.append others, ?_⟩
      rw [bind_of_ok ran, Bool.eq_false_iff.2 stops]
      exact ended

/-- Totals are told after a shell that came to its end. -/
lemma conclude_after {shell : Shell Unit} {c' : Console} (h : shell c = .ok () c') :
    (do shell; conclude : Shell Unit) c =
      .ok () (c'.did (if c'.totals.isSome ∧ 0 < c'.finished then
        totalsTold (Statistics.total c'.totals "steps") (Statistics.total c'.totals "calls")
      else [])) := by
  rw [bind_of_ok h]
  obtain ⟨engine, room, totals, lines, finished, done⟩ := c'
  unfold conclude
  cases totals with
  | none => rfl
  | some totals =>
    by_cases some : 0 < finished
    case pos =>
      rw [if_pos ⟨rfl, some⟩]
      change (if 0 < finished then _ else _ : Shell Unit) _ = _
      rw [if_pos some]
      rfl
    case neg =>
      rw [if_neg fun h => some h.2]
      change (if 0 < finished then _ else _ : Shell Unit) _ = _
      rw [if_neg some]
      rfl

/-- What is done to the end of the items: they are run, and the totals are told at last. -/
lemma items_apply {actions : List Action} {items : List Item}
    (itemized : Itemized world.files world.room 1 actions items) :
    ∃ c', (do act flags world.files 1 actions; conclude : Shell Unit) (consoleFor flags world) =
        (if items.any (·.stops flags world) then .error 1 c' else .ok () c') ∧
      c'.done = ((due flags world items).flatMap (·.effects flags world) ++
        conclusion flags world items).reverse := by
  obtain ⟨c', ran, acted⟩ := act_apply flags (c := consoleFor flags world) itemized rfl
  by_cases stops : items.any (·.stops flags world)
  case pos =>
    rw [if_pos stops] at acted
    refine ⟨c', (bind_of_error acted).trans (if_pos stops).symm, ?_⟩
    unfold conclusion
    rw [if_neg fun h => h.2.1 stops, List.append_nil, ran.done]
    exact List.append_nil _
  case neg =>
    rw [if_neg stops] at acted
    refine ⟨_, (conclude_after acted).trans (if_neg stops).symm, ?_⟩
    rw [due_eq_self stops] at ran ⊢
    unfold Console.did
    rw [List.reverse_append, ran.told stops, ran.done]
    exact congrArg _ (List.append_nil _)

end Shell

/-- A command line that asks for a sequence does what the sequence does, under its flags. -/
lemma main_of_sequence {world : World} {arguments tokens : List String}
    (routed : route world.files (arguments.filter (!isFlag ·)) = .sequence tokens)
    (noHelp : givesHelpValue tokens = false) :
    Shell.main world arguments =
      sequence (Flags.ofArguments (arguments.filter isFlag)) world tokens := by
  unfold Shell.main
  dsimp only
  rw [routed]
  dsimp only
  rw [noHelp]
  rfl

/-- A list that was read behind its first element ends with what was read. -/
lemma eq_cons_of_ok {ε α : Type} {first : α} {others : Except ε (List α)} {all : List α}
    (h : (do return first :: (← others)) = .ok all) :
    ∃ rest, others = .ok rest ∧ all = first :: rest := by
  cases others with
  | error => cases h
  | ok rest => exact ⟨rest, rfl, (Except.ok.inj h).symm⟩

/-- Every action comes from arguments that ask for nothing else. -/
lemma exists_own_arguments {files : Files} {arguments : List String} {actions : List Action}
    (h : parseActions files arguments = .ok actions) {action : Action} (mem : action ∈ actions) :
    ∃ own, own <:+: arguments ∧ parseActions files own = .ok [action] := by
  fun_induction parseActions files arguments generalizing actions with
  | case1 =>
    cases h
    cases mem
  | case2 rest ih =>
    obtain ⟨own, isInfix, read⟩ := ih h mem
    exact ⟨own, List.infix_cons isInfix, read⟩
  | case3 => cases h
  | case4 option names commands code rest ih =>
    obtain ⟨others, parsed, rfl⟩ := eq_cons_of_ok h
    rcases List.mem_cons.1 mem with rfl | mem
    · refine ⟨[option, code], ⟨[], rest, rfl⟩, ?_⟩
      rw [parseActions, if_neg names, if_pos commands]
      rfl
    · obtain ⟨own, isInfix, read⟩ := ih parsed mem
      exact ⟨own, List.infix_cons (List.infix_cons isInfix), read⟩
  | case5 argument rest names commands ih =>
    cases first : parseAction files argument with
    | error e =>
      rw [first] at h
      cases h
    | ok asked =>
      rw [first] at h
      obtain ⟨others, parsed, rfl⟩ := eq_cons_of_ok h
      rcases List.mem_cons.1 mem with rfl | mem
      · refine ⟨[argument], ⟨[], rest, rfl⟩, ?_⟩
        rw [parseActions, if_neg names, if_neg commands, first]
        rfl
      · obtain ⟨own, isInfix, read⟩ := ih parsed mem
        exact ⟨own, List.infix_cons isInfix, read⟩

section
variable (flags : Flags) {world : World} {arguments : List String} {actions : List Action}

/-- What a shell did that came to its end. -/
lemma performed_of_ok {shell : Shell Unit} {c : Console}
    (h : shell (consoleFor flags world) = .ok () c) :
    performed flags world shell = ⟨c.done.reverse.map (plainly flags.plain), 0⟩ := by
  unfold performed
  rw [h]

/-- What a shell did that ended with a status. -/
lemma performed_of_error {shell : Shell Unit} {status : Nat} {c : Console}
    (h : shell (consoleFor flags world) = .error status c) :
    performed flags world shell = ⟨c.done.reverse.map (plainly flags.plain), status⟩ := by
  unfold performed
  rw [h]

/-- If an argument is refused, nothing but the refusal is done. -/
lemma sequence_of_error {e : UsageError}
    (h : parseActions world.files (dropSeparator arguments) = .error e) :
    sequence flags world arguments =
      ⟨[plainly flags.plain (.write .error (usageText "run-dev" "[TOKENS]..." e.message))],
        usageStatus⟩ := by
  unfold sequence performed runSequence
  rw [h]
  rfl

/-- A sequence does what its items do, up to the first that stops it, and concludes. -/
lemma sequence_of_actions {items : List Item}
    (parsed : parseActions world.files (dropSeparator arguments) = .ok actions)
    (some : actions ≠ []) (itemized : Itemized world.files world.room 1 actions items) :
    sequence flags world arguments =
      ⟨((due flags world items).flatMap (·.effects flags world) ++
          conclusion flags world items).map (plainly flags.plain),
        if items.any (·.stops flags world) then 1 else 0⟩ := by
  have begun : runSequence flags world.files arguments = act flags world.files 1 actions := by
    unfold runSequence
    rw [parsed]
    cases actions with
    | nil => exact absurd rfl some
    | cons => rfl
  obtain ⟨c, ended, did⟩ := items_apply flags itemized
  unfold sequence
  rw [begun, ← List.reverse_eq_iff.2 did]
  by_cases stops : items.any (·.stops flags world)
  case pos =>
    rw [if_pos stops] at ended ⊢
    exact performed_of_error flags ended
  case neg =>
    rw [if_neg stops] at ended ⊢
    exact performed_of_ok flags ended

/-- Without any action there is a prompt, which always comes to its end. -/
lemma status_sequence_of_nothing
    (parsed : parseActions world.files (dropSeparator arguments) = .ok []) :
    (sequence flags world arguments).status = 0 := by
  have begun : runSequence flags world.files arguments = prompt flags := by
    unfold runSequence
    rw [parsed]
  obtain ⟨_, _, _, _, _, _, _, _, _, _, ends⟩ :=
    reads flags (consoleFor flags world).lines ((consoleFor flags world).did [greeting]) waiting_nil
  unfold sequence
  rw [begun, performed_of_ok flags (conclude_after ends)]

/-- Every item is asked for by one of the actions. -/
lemma Itemized.exists_action {files : Files} {room number : Nat} {items : List Item} {item : Item}
    (h : Itemized files room number actions items) (mem : item ∈ items) :
    ∃ action ∈ actions, ∃ room number, action.item? files room number = some item := by
  induction h with
  | nil => cases mem
  | @cons room number action _ first _ asks _ ih =>
    rcases List.mem_cons.1 mem with rfl | mem
    · exact ⟨action, List.mem_cons_self .., room, number, asks⟩
    · obtain ⟨other, mem, asks⟩ := ih mem
      exact ⟨other, List.mem_cons_of_mem _ mem, asks⟩

/-- There is no less room for an item than there is for the first. -/
lemma Itemized.le_room {files : Files} {room number : Nat} {items : List Item} {item : Item}
    (h : Itemized files room number actions items) (mem : item ∈ items) : room ≤ item.room := by
  induction h with
  | nil => cases mem
  | @cons room number action _ first _ asks _ ih =>
    rcases List.mem_cons.1 mem with rfl | mem
    · exact Nat.le_of_eq (Shell.room_of_item? asks).symm
    · exact Nat.le_trans (le_roomAfter room first.source) (ih mem)

/-- An action that asks for an item asks for one with any number, which differs in its name, and in
any room. -/
lemma Action.item?_elsewhere {files : Files} {room number : Nat} {action : Action} {item : Item}
    (h : action.item? files room number = some item) (room' number' : Nat) :
    ∃ name, action.item? files room' number' =
      some { item with file := name, room := room' } := by
  cases action with
  | file path =>
    obtain ⟨text, found, rfl⟩ := Option.map_eq_some_iff.1 h
    exact ⟨path, Option.map_eq_some_iff.2 ⟨text, found, rfl⟩⟩
  | command code =>
    cases h
    exact ⟨commandName number', rfl⟩
  | prompt => cases h

/-- An item does the same in any room that it fits, under any name. -/
lemma Item.report_of_fits {item : Item} {room : Nat} (fits : Fits room item.source)
    (le : room ≤ item.room) (name : String) :
    { item with file := name, room := room }.report flags world = item.report flags world := by
  unfold Item.report
  dsimp only
  rw [Engine.runWithin_of_fits fits, Engine.runWithin_of_fits (fits.of_le le)]

/-- An item that there is no room to read is a fault. -/
lemma Item.outcome_of_not_fits {item : Item} (tooDeep : ¬ Fits item.room item.source) :
    (item.report flags world).outcome = .error (.failed (.fault .stackExhausted)) := by
  unfold Item.report
  rw [Engine.runWithin_of_none (not_not.1 tooDeep)]

end

/-- The items of a command line are independent, up to the room that there is to read them. If any
argument is refused, nothing but the refusal is done. Otherwise the items are run in the order
given, up to the first that fails unless errors are ignored. The status tells whether one failed
that was not ignored, and the totals that are told at the end are the sums of what the items count.
Each does what it does in a command line of its own, where only its number may differ, if there is
room for it at the start. If there is none it is a fault there, but may run behind another. -/
theorem sequence_does_items (flags : Flags) (world : World) (arguments : List String) :
    let tokens := dropSeparator arguments
    let ran := sequence flags world arguments
    (∀ e, parseActions world.files tokens = .error e →
      ran = ⟨[plainly flags.plain (.write .error (usageText "run-dev" "[TOKENS]..." e.message))],
        usageStatus⟩) ∧
    ∀ actions items, parseActions world.files tokens = .ok actions →
      Itemized world.files world.room 1 actions items →
      ran.status = (if items.any (·.stops flags world) then 1 else 0) ∧
      (flags.ignore → due flags world items = items ∧ ran.status = 0) ∧
      (items ≠ [] → ran.effects =
        ((due flags world items).flatMap (·.effects flags world) ++
          conclusion flags world items).map (plainly flags.plain)) ∧
      ∀ item ∈ items, ∃ own action name, own <:+: tokens ∧
        parseActions world.files own = .ok [action] ∧
        let alone := { item with file := name, room := world.room }
        action.item? world.files world.room 1 = some alone ∧
        sequence flags world ("--" :: own) =
          ⟨(alone.effects flags world ++ conclusion flags world [alone]).map (plainly flags.plain),
            if alone.stops flags world then 1 else 0⟩ ∧
        (Fits world.room item.source → alone.report flags world = item.report flags world) ∧
        (¬ Fits world.room item.source →
          (alone.report flags world).outcome = .error (.failed (.fault .stackExhausted))) := by
  intro tokens ran
  refine ⟨fun e refused => sequence_of_error flags refused, fun actions items parsed itemized => ?_⟩
  have status : ran.status = if items.any (·.stops flags world) then 1 else 0 := by
    cases itemized with
    | nil => exact status_sequence_of_nothing flags parsed
    | cons asks rest =>
      have ran := sequence_of_actions flags parsed (List.cons_ne_nil _ _) (.cons asks rest)
      exact congrArg (·.status) ran
  refine ⟨status, fun ignore => ?_, fun some => ?_, fun item mem => ?_⟩
  case refine_1 =>
    have goesOn : ¬ items.any (·.stops flags world) := by simp [Item.stops, ignore]
    exact ⟨due_eq_self goesOn, status.trans (if_neg goesOn)⟩
  case refine_2 =>
    have asked : actions ≠ [] := by
      rintro rfl
      cases itemized
      exact some rfl
    exact congrArg (·.effects) (sequence_of_actions flags parsed asked itemized)
  case refine_3 =>
    obtain ⟨action, asking, _, _, asks⟩ := itemized.exists_action mem
    -- The arguments that an item comes from ask for it alone as they do among the others.
    obtain ⟨own, isInfix, read⟩ := exists_own_arguments parsed asking
    obtain ⟨name, alone⟩ := Action.item?_elsewhere asks world.room 1
    have arguments : parseActions world.files (dropSeparator ("--" :: own)) = .ok [action] := read
    have ran := sequence_of_actions flags arguments (List.cons_ne_nil _ _) (.cons alone .nil)
    rw [due_singleton, List.flatMap_singleton, List.any_cons, List.any_nil, Bool.or_false] at ran
    exact ⟨own, action, name, isInfix, read, alone, ran,
      fun fits => Item.report_of_fits flags fits (itemized.le_room mem) name,
      fun tooDeep => Item.outcome_of_not_fits flags tooDeep⟩

/-- If errors are ignored, two commands do what each of them does, whether they fail or not. -/
theorem commands_do_items :
    let flags : Flags := ⟨0, true, false, false⟩
    let world : World := ⟨.empty, "", fun _ => .ended 0, initialRoom⟩
    let arguments := ["-c", "x ", "-c", "run(1)"]
    let items : List Item :=
      [⟨"<INPUT_1>", "x\n", true, initialRoom⟩, ⟨"<INPUT_2>", "run(1)\n", true, fullRoom⟩]
    parseActions world.files arguments = .ok [.command "x ", .command "run(1)"] ∧
    Itemized world.files world.room 1 [.command "x ", .command "run(1)"] items ∧
    (sequence flags world arguments).status = 0 ∧
    (sequence flags world arguments).effects =
      (items.flatMap (·.effects flags world)).map (plainly false) := by
  intro flags world arguments items
  have parsed : parseActions world.files arguments = .ok [.command "x ", .command "run(1)"] := rfl
  have room : roomAfter initialRoom "x\n" = fullRoom := by decide +kernel
  have itemized : Itemized world.files world.room 1 [.command "x ", .command "run(1)"] items :=
    .cons rfl (.cons (congrArg (fun room => Action.item? _ room _ _) room) .nil)
  obtain ⟨-, ignoring, effects, -⟩ :=
    (sequence_does_items flags world arguments).2 _ _ parsed itemized
  obtain ⟨all, status⟩ := ignoring rfl
  refine ⟨parsed, itemized, status, ?_⟩
  have untold : conclusion flags world items = [] := if_neg fun h => Bool.false_ne_true h.1
  rw [effects (List.cons_ne_nil _ _), all, untold, List.append_nil]

/-- A text that returns what stands between parentheses ends in no blank. -/
lemma commandSource_nested (depth : Nat) : commandSource (nested depth) = nested depth ++ "\n" := by
  obtain ⟨text, c, ends, visible⟩ : ∃ text c, parenthesized depth = text ++ [c] ∧
      Text.isBlank c = false := by
    cases depth with
    | zero => exact ⟨[], '1', rfl, rfl⟩
    | succ depth => exact ⟨'(' :: parenthesized depth, ')', rfl, rfl⟩
  have whole : (nested depth).toList = ("return ".toList ++ text) ++ [c] := by
    rw [nested, ends]
    simp
  have kept : Text.trimRight (nested depth).toList = (nested depth).toList := by
    unfold Text.trimRight
    rw [whole, List.reverse_concat, List.dropWhile_cons_of_neg (by simp [visible]),
      List.reverse_cons, List.reverse_reverse]
  unfold commandSource
  rw [kept, String.ofList_append, String.ofList_toList]

/-- An item of nested parentheses writes the number, in any room that it fits. -/
lemma report_nested (world : World) (file : String) {depth room : Nat} (nests : 0 < depth)
    (fits : Fits room (nested depth ++ "\n")) :
    let item : Item := ⟨file, nested depth ++ "\n", true, room⟩
    (item.report ⟨0, false, false, false⟩ world).events = [] ∧
    (item.report ⟨0, false, false, false⟩ world).outcome =
      .ok (some (.number (Number.literal ['1']))) := by
  have read : parseWithin room (nested depth ++ "\n") = some (.ok returningOne) := by
    rw [fits.parseWithin_eq, parse_nested nests]
  unfold Item.report
  dsimp only
  rw [Engine.runWithin_of_program read]
  exact ⟨rfl, rfl⟩

/-- A command that nests too deeply for the room at the start is a fault on its own, and runs behind
another. -/
theorem nested_command_needs_another :
    let flags : Flags := ⟨0, false, false, false⟩
    let world : World := ⟨.empty, "", fun _ => .ended 0, initialRoom⟩
    sequence flags world ["-c", "1", "-c", nested 600] = ⟨[.write .output "1\n"], 0⟩ ∧
    (sequence flags world ["-c", nested 600]).status = 1 := by
  intro flags world
  have kept (others : List String) (absent : "--" ∉ others) :
      dropSeparator (others ++ [nested 600]) = others ++ [nested 600] := by
    have separates : "--" ≠ nested 600 := by
      intro same
      have starts := congrArg String.toList same
      simp [nested] at starts
    exact List.erase_of_not_mem (by simp [separates, absent])
  have asks (room number : Nat) : Action.item? .empty room number (.command (nested 600)) =
      some ⟨commandName number, nested 600 ++ "\n", true, room⟩ := by
    rw [← commandSource_nested]
    rfl
  constructor
  case left =>
    -- The first command does nothing but make room for the second.
    let first : Item := ⟨"<INPUT_1>", "1\n", true, initialRoom⟩
    have room : roomAfter initialRoom "1\n" = fullRoom := by decide +kernel
    have parsed : parseActions world.files (dropSeparator ["-c", "1", "-c", nested 600]) =
        .ok [.command "1", .command (nested 600)] :=
      (congrArg _ (kept ["-c", "1", "-c"] (by decide))).trans rfl
    have itemized : Itemized world.files world.room 1 [.command "1", .command (nested 600)]
        [first, ⟨"<INPUT_2>", nested 600 ++ "\n", true, fullRoom⟩] :=
      .cons rfl (.cons (room ▸ asks _ 2) .nil)
    have ran := sequence_of_actions flags parsed (List.cons_ne_nil _ _) itemized
    have fits : Fits fullRoom (nested 600 ++ "\n") := fits_nested (by decide) (by decide)
    obtain ⟨silent, outcome⟩ := report_nested world "<INPUT_2>" (by decide) fits
    have first_goesOn : first.stops flags world = false := by decide +kernel
    have nothing : first.effects flags world = [] := by decide +kernel
    have echo : (Value.number (Number.literal ['1'])).echo ++ "\n" = "1\n" := by decide +kernel
    have goesOn : ¬ [first, ⟨"<INPUT_2>", nested 600 ++ "\n", true, fullRoom⟩].any
        (·.stops flags world) := by
      rw [List.any_cons, first_goesOn, List.any_cons, Item.stops, Item.fails, outcome]
      exact Bool.false_ne_true
    rw [ran, due_eq_self goesOn, if_neg goesOn, List.flatMap_cons, nothing, List.flatMap_singleton,
      Item.effects, silent, outcome, Item.answer, if_pos rfl, echo]
    rfl
  case right =>
    let alone : Item := ⟨"<INPUT_1>", nested 600 ++ "\n", true, initialRoom⟩
    have parsed : parseActions world.files (dropSeparator ["-c", nested 600]) =
        .ok [.command (nested 600)] :=
      (congrArg _ (kept ["-c"] (by decide))).trans rfl
    have itemized : Itemized world.files world.room 1 [.command (nested 600)] [alone] :=
      .cons (asks _ 1) .nil
    have ran := sequence_of_actions flags parsed (List.cons_ne_nil _ _) itemized
    -- On its own the command has no more room than there is at the start.
    have tooDeep : ¬ Fits alone.room alone.source := not_fits_nested (by decide) (by decide)
    have fault : (alone.report flags world).outcome = _ := Item.outcome_of_not_fits flags tooDeep
    have stops : [alone].any (·.stops flags world) = true := by
      rw [List.any_cons, Item.stops, Item.fails, fault]
      rfl
    rw [ran, if_pos stops]

end CommandLine

end ScriptLang
