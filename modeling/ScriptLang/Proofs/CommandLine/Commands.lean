import ScriptLang.Proofs.CommandLine.Items

/-!
# Commands among the arguments

The code of a command is an argument of its own, behind the option. But before the arguments are
read one after the other the global flags are taken out, wherever they stand, and the first
separator is dropped. So codes are taken as they are, whatever they look like, if and only if none
of them is a flag or a separator (`reads_commands_iff`). Those that are leave their option to the
argument behind them.
-/

namespace ScriptLang.CommandLine
open Shell

/-- The arguments that give commands. -/
def commandArguments (codes : List String) : List String := codes.flatMap fun code => ["-c", code]

/-- The arguments that are left to be read as actions. -/
def argumentsLeft (arguments : List String) : List String :=
  dropSeparator (arguments.filter (!isFlag ·))

/-- Whether a code is taken away before it is read: as a global flag or as a separator. -/
def isTaken (code : String) : Bool := isFlag code || code == "--"

/-- Whether an argument is the option that asks for help, with or without a value. -/
def asksForHelp (argument : String) : Bool := argument == "--help" || argument.startsWith "--help="

/-- The items that commands make, numbered from `number` on, given the room for the first. -/
def commandItems (room number : Nat) : List String → List Item
  | [] => []
  | code :: rest =>
    ⟨commandName number, commandSource code, true, room⟩ ::
      commandItems (roomAfter room (commandSource code)) (number + 1) rest

section
variable {files : Files} {code : String} {rest codes : List String}

/-- The option of commands is no flag. -/
lemma isFlag_option : isFlag "-c" = false := rfl

/-- The argument behind the option is the code of a command. -/
lemma parseActions_command (code : String) (rest : List String) :
    parseActions files ("-c" :: code :: rest) =
      (do return .command code :: (← parseActions files rest)) := by
  rw [parseActions]
  rfl

/-- A command is its option with its code. -/
lemma commandArguments_cons :
    commandArguments (code :: rest) = "-c" :: code :: commandArguments rest := rfl

/-- A code that is not taken away stays behind its option. -/
lemma argumentsLeft_of_kept (h : ¬ isTaken code) :
    argumentsLeft (commandArguments (code :: rest)) =
      "-c" :: code :: argumentsLeft (commandArguments rest) := by
  obtain ⟨noFlag, noSeparator⟩ : isFlag code = false ∧ ¬ code = "--" := by simpa [isTaken] using h
  unfold argumentsLeft dropSeparator
  rw [commandArguments_cons]
  simp [isFlag_option, noFlag, noSeparator]

/-- What is left without the flags starts with an option, if there is a command. -/
lemma head?_filter_commandArguments (codes : List String) :
    ((commandArguments codes).filter (!isFlag ·)).head? = codes.head?.map fun _ => "-c" := by
  cases codes with
  | nil => rfl
  | cons code rest => simp [commandArguments_cons, isFlag_option]

/-- What is left to be read starts with an option, if there is a command. -/
lemma head?_argumentsLeft (codes : List String) :
    (argumentsLeft (commandArguments codes)).head? = codes.head?.map fun _ => "-c" := by
  cases codes with
  | nil => rfl
  | cons code rest =>
    simp [argumentsLeft, dropSeparator, commandArguments_cons, isFlag_option]

/-- Behind a code that was taken away the next option follows, if there is one. -/
lemma argumentsLeft_of_taken (h : isTaken code) :
    ∃ more, argumentsLeft (commandArguments (code :: rest)) = "-c" :: more ∧
      more.head? = rest.head?.map fun _ => "-c" := by
  by_cases flag : isFlag code
  case pos =>
    refine ⟨argumentsLeft (commandArguments rest), ?_, head?_argumentsLeft rest⟩
    unfold argumentsLeft dropSeparator
    rw [commandArguments_cons]
    simp [isFlag_option, flag]
  case neg =>
    obtain rfl : code = "--" := by simpa [isTaken, flag] using h
    refine ⟨(commandArguments rest).filter (!isFlag ·), ?_, head?_filter_commandArguments rest⟩
    unfold argumentsLeft dropSeparator
    rw [commandArguments_cons]
    simp [isFlag_option, flag]

/-- Commands are read as they are if and only if none of their codes is taken away before. -/
lemma reads_commands_iff : parseActions files (argumentsLeft (commandArguments codes)) =
    .ok (codes.map .command) ↔ ∀ code ∈ codes, ¬ isTaken code := by
  induction codes with
  | nil => exact iff_of_true rfl (List.forall_mem_nil _)
  | cons code rest ih =>
    rw [List.forall_mem_cons]
    by_cases taken : isTaken code
    case neg =>
      rw [argumentsLeft_of_kept taken, parseActions_command, List.map_cons, ← ih]
      constructor
      · intro read
        obtain ⟨others, parsed, same⟩ := eq_cons_of_ok read
        rw [parsed, (List.cons.inj same).2]
        exact ⟨taken, rfl⟩
      · rintro ⟨-, parsed⟩
        rw [parsed]
        rfl
    case pos =>
      refine ⟨fun read => ?_, fun kept => absurd taken kept.1⟩
      obtain ⟨more, left, next⟩ : ∃ more, argumentsLeft (commandArguments (code :: rest)) = _ ∧ _ :=
        argumentsLeft_of_taken taken
      rw [left] at read
      -- The next code took the place of the one that was taken away, or there is none.
      cases more with
      | nil => cases read
      | cons first others =>
        obtain ⟨_, _, rfl⟩ := Option.map_eq_some_iff.1 next.symm
        rw [parseActions_command] at read
        obtain ⟨_, _, same⟩ := eq_cons_of_ok read
        cases same
        exact absurd taken Bool.false_ne_true

/-- Commands ask for their items. -/
lemma itemized_commands (room number : Nat) :
    Itemized files room number (codes.map .command) (commandItems room number codes) := by
  induction codes generalizing room number with
  | nil => exact .nil
  | cons code rest ih => exact .cons rfl (ih _ (number + 1))

/-- What is true of the option and of all codes is true of all arguments. -/
lemma forall_mem_commandArguments {P : String → Prop} (option : P "-c")
    (h : ∀ code ∈ codes, P code) : ∀ argument ∈ commandArguments codes, P argument := by
  intro argument mem
  obtain ⟨code, mem, either⟩ := List.mem_flatMap.1 mem
  simp only [List.mem_cons, List.not_mem_nil, or_false] at either
  rcases either with rfl | rfl
  · exact option
  · exact h _ mem

/-- No argument gives the option of help a value if none asks for help. -/
lemma givesHelpValue_commandArguments (noHelp : ∀ code ∈ codes, ¬ asksForHelp code) :
    givesHelpValue (commandArguments codes) = false := by
  have noValue : ∀ argument ∈ commandArguments codes, ¬ argument.startsWith "--help=" := by
    refine forall_mem_commandArguments (by decide) fun code mem value => noHelp code mem ?_
    unfold asksForHelp
    rw [value, Bool.or_true]
  refine List.any_eq_false.2 fun argument mem => noValue argument ?_
  exact (List.takeWhile_prefix _).subset mem

/-- No argument is a flag if no code is taken away. -/
lemma isFlag_commandArguments (kept : ∀ code ∈ codes, ¬ isTaken code) :
    ∀ argument ∈ commandArguments codes, isFlag argument = false := by
  refine forall_mem_commandArguments isFlag_option fun code mem => ?_
  have kept : ¬ isTaken code := kept code mem
  unfold isTaken at kept
  rw [Bool.or_eq_true, not_or] at kept
  exact Bool.eq_false_iff.2 kept.1

/-- A command line that asks for commands and is to ignore errors asks for their sequence. -/
lemma main_commandArguments (world : World) (some : codes ≠ [])
    (kept : ∀ code ∈ codes, ¬ isTaken code) (noHelp : ∀ code ∈ codes, ¬ asksForHelp code) :
    Shell.main world ("--ignore" :: commandArguments codes) =
      sequence ⟨0, true, false, false⟩ world (commandArguments codes) := by
  have noFlags := isFlag_commandArguments kept
  have given : ("--ignore" :: commandArguments codes).filter isFlag = ["--ignore"] := by
    rw [List.filter_cons_of_pos rfl, List.filter_eq_nil_iff.2 fun a mem => by simp [noFlags a mem]]
  have left : ("--ignore" :: commandArguments codes).filter (!isFlag ·) =
      commandArguments codes := by
    rw [List.filter_cons_of_neg (by decide)]
    exact List.filter_eq_self.2 fun a mem => by simp [noFlags a mem]
  have routed : route world.files (("--ignore" :: commandArguments codes).filter (!isFlag ·)) =
      .sequence (commandArguments codes) := by
    rw [left]
    cases codes with
    | nil => exact absurd rfl some
    | cons code rest => rfl
  rw [main_of_sequence routed (givesHelpValue_commandArguments noHelp), given]
  rfl

end

/-- A command line whose errors are ignored takes the codes of its commands as they are, whatever
they look like, as long as no code is a global flag or a separator: then, and only then, are the
arguments read as just these commands, and unless one of them asks for help the command line does
what the scripts do that have the codes as their texts, one after the other. -/
theorem codes_are_taken_as_they_are (world : World) (codes : List String) :
    let flags : Flags := ⟨0, true, false, false⟩
    let arguments := "--ignore" :: commandArguments codes
    (parseActions world.files (argumentsLeft arguments) = .ok (codes.map .command) ↔
      ∀ code ∈ codes, ¬ isTaken code) ∧
    (codes ≠ [] → (∀ code ∈ codes, ¬ isTaken code) → (∀ code ∈ codes, ¬ asksForHelp code) →
      Shell.main world arguments =
        ⟨(commandItems world.room 1 codes).flatMap (·.effects flags world), 0⟩) := by
  intro flags arguments
  refine ⟨reads_commands_iff, fun some kept noHelp => ?_⟩
  have left : argumentsLeft (commandArguments codes) = dropSeparator (commandArguments codes) := by
    have noFlags := isFlag_commandArguments kept
    exact congrArg _ (List.filter_eq_self.2 fun a mem => by simp [noFlags a mem])
  have parsed : parseActions world.files (dropSeparator (commandArguments codes)) =
      .ok (codes.map .command) := left ▸ reads_commands_iff.2 kept
  have asked : codes.map Action.command ≠ [] := by simpa using some
  have goesOn : ¬ (commandItems world.room 1 codes).any (·.stops flags world) := by
    simp [Item.stops, flags]
  have untold : conclusion flags world (commandItems world.room 1 codes) = [] :=
    if_neg fun h => Bool.false_ne_true h.1
  have plain (effects : List Effect) : effects.map (plainly flags.plain) = effects :=
    (List.map_congr_left fun effect _ => by cases effect <;> rfl).trans (List.map_id _)
  rw [main_commandArguments world some kept noHelp,
    sequence_of_actions flags parsed asked (itemized_commands _ 1), plain, if_neg goesOn,
    due_eq_self goesOn, untold, List.append_nil]

/-- Codes that look like an option, a script and the option of commands. -/
theorem odd_codes_are_taken_as_they_are :
    let flags : Flags := ⟨0, true, false, false⟩
    let world : World := ⟨.empty, "", fun _ => .ended 0, initialRoom⟩
    let items := [⟨"<INPUT_1>", "-x\n", true, initialRoom⟩,
      ⟨"<INPUT_2>", "a.pcl\n", true, fullRoom⟩, ⟨"<INPUT_3>", "-c\n", true, fullRoom⟩]
    Shell.main world ["--ignore", "-c", "-x", "-c", "a.pcl", "-c", "-c"] =
      ⟨items.flatMap (Item.effects flags world), 0⟩ := by
  intro flags world items
  have first : roomAfter initialRoom (commandSource "-x") = fullRoom := by decide +kernel
  have second : roomAfter fullRoom (commandSource "a.pcl") = fullRoom := by decide +kernel
  have made : commandItems world.room 1 ["-x", "a.pcl", "-c"] = items := by
    rw [commandItems, first, commandItems, second]
    rfl
  rw [← made]
  exact (codes_are_taken_as_they_are world ["-x", "a.pcl", "-c"]).2 (List.cons_ne_nil _ _)
    (by decide) (by decide)

/-- The code `-v` is a flag, so it is taken away from its option, although the arguments themselves
would be read as the command. -/
theorem flag_is_taken_away :
    let world : World := ⟨.empty, "", fun _ => .ended 0, initialRoom⟩
    let arguments := commandArguments ["-v"]
    parseActions world.files arguments = .ok [.command "-v"] ∧
    Shell.main world ("--ignore" :: arguments) =
      ⟨[.write .error (usageText "run-dev" "[TOKENS]..." UsageError.missingCode.message)],
        usageStatus⟩ := by
  intro world arguments
  have left : ("--ignore" :: arguments).filter (!isFlag ·) = ["-c"] := by decide
  have routed : route .empty ["-c"] = .sequence ["-c"] := by decide +kernel
  have routed : route world.files (("--ignore" :: arguments).filter (!isFlag ·)) =
      .sequence ["-c"] := by rw [left]; exact routed
  exact ⟨rfl, (main_of_sequence routed (by decide)).trans (sequence_of_error _ rfl)⟩

end ScriptLang.CommandLine
