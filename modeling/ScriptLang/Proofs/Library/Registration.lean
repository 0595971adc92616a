import ScriptLang.Engine
import ScriptLang.Proofs.Environment.Variables
import ScriptLang.Proofs.Evaluation.Observer

/-!
# What registrations do

A name stands for a function of the host by way of at most one alias, and an alias comes first. So a
registration of a function changes what exactly those names stand for that lead to its own name, and
an alias changes its own meaning only (`registration_decides_meaning`). An alias is stored before it
is looked at: one that is rejected stays, stands for nothing, and has every other alias rejected
after it (`rejected_alias_stays`).
-/

namespace ScriptLang
open Evaluation

namespace Bindings

/-- A replacement enters the name with the value. -/
lemma mem_replace {α : Type} (name : String) (value : α) (entries : List (String × α)) :
    (name, value) ∈ replace name value entries := by
  induction entries with
  | nil => exact List.mem_singleton_self _
  | cons entry rest ih =>
    obtain ⟨key, old⟩ := entry
    unfold replace
    split
    case isTrue same =>
      subst same
      exact List.mem_cons_self
    case isFalse => exact List.mem_cons_of_mem _ ih

/-- An entry of another name stays. -/
lemma mem_replace_of_ne {α : Type} {name other : String} {value old : α}
    {entries : List (String × α)} (ne : other ≠ name) (h : (other, old) ∈ entries) :
    (other, old) ∈ replace name value entries := by
  induction entries with
  | nil => cases h
  | cons entry rest ih =>
    obtain ⟨key, first⟩ := entry
    unfold replace
    split
    case isTrue same =>
      rcases List.mem_cons.1 h with e | mem
      · cases e
        exact absurd same ne
      · exact List.mem_cons_of_mem _ mem
    case isFalse =>
      rcases List.mem_cons.1 h with e | mem
      · rw [e]
        exact List.mem_cons_self
      · exact List.mem_cons_of_mem _ (ih mem)

end Bindings

/-- Evaluates a call of a function of the host by a name. -/
def Evaluation.callHost (settings : Settings) (evaluate : Evaluator) (name : String)
    (builtin : Builtin) (arguments : List Expression) : Run (Option Value) := do
  let values ← argumentsOf evaluate name 1 arguments
  match builtin.signature.bind (·.problem? values.length) with
  | some problem => Run.fail (.builtinArity name values.length problem)
  | none =>
    performBuiltin settings name builtin values
    return none

namespace Library
variable {library library' : Library} {name : String}

/-- A name stands for a function of the host: it is found under the name, arguments are checked
against its signature, and a script that calls the name calls it. -/
structure Offers (library : Library) (name : String) (builtin : Builtin) : Prop where
  has : library.hasBuiltin name = true
  get : library.getBuiltin name = .ok builtin
  check (count : Nat) : library.checkArguments name count =
    match builtin.signature.bind (·.problem? count) with
    | some problem => .error (.builtinArity name count problem)
    | none => .ok ()
  call (settings : Settings) (limit : Nat) (arguments : List Expression) :
    settings.library = library →
    evaluate settings (limit + 1) (.call (.identifier name) arguments) =
      callHost settings (evaluate settings limit) name builtin arguments

/-- All questions about a name have the same answer in both libraries, and a script that calls the
name calls the same function with both. -/
structure SameMeaning (library library' : Library) (name : String) : Prop where
  has : library'.hasBuiltin name = library.hasBuiltin name
  get : library'.getBuiltin name = library.getBuiltin name
  check (count : Nat) : library'.checkArguments name count = library.checkArguments name count
  offers (builtin : Builtin) : library'.Offers name builtin ↔ library.Offers name builtin

/-- A library offers what its name stands for. -/
lemma Offers.of_builtin? {builtin : Builtin} (found : library.builtin? name = some builtin) :
    library.Offers name builtin where
  has := by
    unfold hasBuiltin
    rw [found]
    rfl
  get := by
    unfold getBuiltin
    rw [found]
  check count := by
    unfold checkArguments
    rw [found]
    rfl
  call settings limit arguments same := by
    subst same
    show Evaluation.call settings (evaluate settings limit) (.identifier name) arguments = _
    rw [← callBy_callFunction]
    unfold callBy callHost checkArguments
    dsimp only
    rw [found]
    refine bind_congr fun values => ?_
    dsimp only [Option.bind_some]
    cases builtin.signature.bind (·.problem? values.length) with
    | some problem => rfl
    | none => rfl

/-- A library offers a function by a name if and only if the name stands for it. -/
lemma offers_iff {builtin : Builtin} :
    library.Offers name builtin ↔ library.builtin? name = some builtin := by
  refine ⟨fun offers => ?_, .of_builtin?⟩
  have get := offers.get
  unfold getBuiltin at get
  split at get
  case h_1 found =>
    cases get
    exact found
  case h_2 => cases get

/-- A name means the same if it stands for the same function. -/
lemma SameMeaning.of_builtin? (same : library'.builtin? name = library.builtin? name) :
    library.SameMeaning library' name where
  has := congrArg Option.isSome same
  get := by
    unfold getBuiltin
    rw [same]
  check count := by
    unfold checkArguments
    rw [same]
  offers builtin := by rw [offers_iff, offers_iff, same]

/-- A function that is entered stands behind its name and all that resolve to it. -/
lemma builtin?_set (library : Library) (name other : String) (builtin : Builtin) :
    builtin? { library with builtins := library.builtins.set name builtin } other =
      if library.resolve other = name then some builtin else library.builtin? other := by
  unfold builtin?
  rw [Bindings.get?_set]
  exact if_congr eq_comm rfl rfl

/-- A name leads to itself unless it is an alias. -/
lemma resolve_of_no_alias (h : library.aliases.get? name = none) : library.resolve name = name := by
  unfold resolve
  rw [h]
  rfl

/-- An alias stands for the function that is entered by its name, others as before. -/
lemma builtin?_addAlias (library : Library) (nickname name other : String) :
    (library.addAlias nickname name).builtin? other =
      if other = nickname then library.builtins.get? name else library.builtin? other := by
  unfold builtin? resolve addAlias
  rw [Bindings.get?_set]
  split
  case isTrue same =>
    rw [if_pos same.symm]
    rfl
  case isFalse ne => rw [if_neg (Ne.symm ne)]

/-- A library is in order if every alias is one of a function. -/
lemma ensureConsistent_eq_ok_iff :
    library.ensureConsistent = .ok () ↔
      ∀ entry ∈ library.aliases.entries, library.builtins.contains entry.2 = true := by
  have eq : library.danglingAlias? =
      library.aliases.entries.find? fun entry => !library.builtins.contains entry.2 := rfl
  unfold ensureConsistent
  rw [eq]
  cases found : library.aliases.entries.find? fun entry => !library.builtins.contains entry.2 with
  | none => simpa using found
  | some entry =>
    have dangling : library.builtins.contains entry.2 = false := by
      simpa using List.find?_some found
    refine ⟨nofun, fun all => ?_⟩
    rw [all entry (List.mem_of_find?_eq_some found)] at dangling
    cases dangling

/-- No alias is accepted for as long as one of them, even one from before, is of no function. -/
lemma ensureConsistent_ne_ok {entry : String × String} (mem : entry ∈ library.aliases.entries)
    (unknown : library.builtins.get? entry.2 = none) :
    ∃ e, library.ensureConsistent = .error e := by
  cases outcome : library.ensureConsistent with
  | error e => exact ⟨e, rfl⟩
  | ok _ =>
    have known := ensureConsistent_eq_ok_iff.1 outcome entry mem
    unfold Bindings.contains at known
    rw [unknown] at known
    cases known

/-- The names of a library are those of its functions and its aliases. -/
lemma mem_names_iff {other : String} :
    other ∈ library.names ↔ other ∈ library.builtins.names ∨ other ∈ library.aliases.names := by
  unfold names
  rw [List.mem_mergeSort, List.mem_eraseDups, List.mem_append]

/-- An alias is listed, besides all that was. -/
lemma mem_names_addAlias_iff {nickname other : String} :
    other ∈ (library.addAlias nickname name).names ↔
      other = nickname ∨ other ∈ library.names := by
  have aliases : other ∈ (library.aliases.set nickname name).names ↔
      other = nickname ∨ other ∈ library.aliases.names := by
    rw [← Bindings.contains_iff, ← Bindings.contains_iff]
    unfold Bindings.contains
    rw [Bindings.get?_set]
    split
    case isTrue same => simp [same]
    case isFalse ne => simp [Ne.symm ne]
  rw [mem_names_iff, mem_names_iff]
  show other ∈ library.builtins.names ∨ other ∈ (library.aliases.set nickname name).names ↔ _
  rw [aliases, or_left_comm]

end Library

namespace Engine
variable {engine after : Engine} {name nickname : String}

/-- Only functions are registered. -/
lemma registerBuiltin_eq_ok {candidate : Candidate}
    (h : engine.registerBuiltin name candidate = (.ok (), after)) :
    ∃ builtin, candidate = .function builtin ∧ after.library =
      { engine.library with builtins := engine.library.builtins.set name builtin } := by
  cases candidate with
  | function builtin =>
    cases h
    exact ⟨builtin, rfl, rfl⟩
  | other => cases h

/-- Only aliases of functions are accepted. -/
lemma registerAlias_eq_ok (h : engine.registerAlias nickname name = (.ok (), after)) :
    (∃ builtin, engine.library.builtins.get? name = some builtin) ∧
      after.library = engine.library.addAlias nickname name := by
  obtain ⟨consistent, rfl⟩ := Prod.mk.inj h
  have known := Library.ensureConsistent_eq_ok_iff.1 consistent _
    (Bindings.mem_replace nickname name engine.library.aliases.entries)
  exact ⟨Option.isSome_iff_exists.1 known, rfl⟩

end Engine

/-- A registration decides what a name stands for. A function that is registered under a name is
what all names stand for that lead there: the name itself, unless it is an alias, and its aliases.
An alias that is accepted stands for the function that is registered under the name. No other name
changes its meaning, in particular not one that is an alias of another when a function is registered
under it. -/
theorem registration_decides_meaning (engine : Engine) :
    (∀ name candidate after, engine.registerBuiltin name candidate = (.ok (), after) →
      ∃ builtin, candidate = .function builtin ∧
        (engine.library.aliases.get? name = none → after.library.Offers name builtin) ∧
        (∀ other, engine.library.aliases.get? other = some name →
          after.library.Offers other builtin) ∧
        ∀ other, engine.library.resolve other ≠ name →
          engine.library.SameMeaning after.library other) ∧
    ∀ nickname name after, engine.registerAlias nickname name = (.ok (), after) →
      ∃ builtin, engine.library.builtins.get? name = some builtin ∧
        after.library.Offers nickname builtin ∧
        ∀ other, other ≠ nickname → engine.library.SameMeaning after.library other := by
  constructor
  · intro name candidate after registered
    obtain ⟨builtin, rfl, eq⟩ := Engine.registerBuiltin_eq_ok registered
    -- Whatever leads to the name, by an alias or by itself, finds the function there.
    have leads {other : String} (h : engine.library.resolve other = name) :
        after.library.Offers other builtin := by
      apply Library.Offers.of_builtin?
      rw [eq, Library.builtin?_set, if_pos h]
    refine ⟨builtin, rfl, fun plain => leads (Library.resolve_of_no_alias plain),
      fun other found => leads ?_, fun other elsewhere => .of_builtin? ?_⟩
    · unfold Library.resolve
      rw [found]
      rfl
    · rw [eq, Library.builtin?_set, if_neg elsewhere]
  · intro nickname name after accepted
    obtain ⟨⟨builtin, known⟩, eq⟩ := Engine.registerAlias_eq_ok accepted
    refine ⟨builtin, known, .of_builtin? ?_, fun other ne => .of_builtin? ?_⟩
    · rw [eq, Library.builtin?_addAlias, if_pos rfl, known]
    · rw [eq, Library.builtin?_addAlias, if_neg ne]

/-- A function that takes the place of another in the standard library is what its alias stands for,
too. -/
theorem replacement_reaches_alias :
    ∃ after, (Engine.new (.standard fun _ => .ended 0)).registerBuiltin "cmd"
        (.function Library.print) = (.ok (), after) ∧
      after.library.Offers "cmd" Library.print ∧ after.library.Offers "run" Library.print := by
  have decides := (registration_decides_meaning (.new (.standard fun _ => .ended 0))).1
  obtain ⟨_, ⟨⟩, direct, byAlias, _⟩ := decides "cmd" (.function Library.print) _ rfl
  exact ⟨_, rfl, direct rfl, byAlias "run" rfl⟩

/-- The library that scripts start with has an alias. A function that is registered under it is not
what it stands for. -/
theorem alias_outlives_registration :
    ¬ ∀ name builtin, ((Engine.new (.standard fun _ => .ended 0)).registerBuiltin name
      (.function builtin)).2.library.getBuiltin name = .ok builtin := by
  intro wins
  have same : (Except.ok (Library.command fun _ => .ended 0) : Except Cause Builtin) =
    .ok Library.print := wins "run" Library.print
  have hostName : "op_cmd" = "op_print" := congrArg Builtin.hostName (Except.ok.inj same)
  exact absurd hostName (by decide)

/-- An alias of a name without a function is rejected, but stays. It stands for nothing, whatever it
stood for before, it is listed among the names, and no alias under another name is accepted after
it. All other names keep their meaning. -/
theorem rejected_alias_stays (engine : Engine) (nickname : String) {name : String}
    (unknown : engine.library.builtins.get? name = none) :
    ∃ e after, engine.registerAlias nickname name = (.error e, after) ∧
      after.library.hasBuiltin nickname = false ∧
      (∀ other, other ≠ nickname → engine.library.SameMeaning after.library other) ∧
      (∀ other, other ∈ after.library.names ↔
        other = nickname ∨ other ∈ engine.library.names) ∧
      ∀ other target, other ≠ nickname →
        ∃ e, (after.registerAlias other target).1 = .error e := by
  have stays : (nickname, name) ∈ (engine.library.addAlias nickname name).aliases.entries :=
    Bindings.mem_replace nickname name engine.library.aliases.entries
  obtain ⟨e, rejected⟩ := Library.ensureConsistent_ne_ok stays unknown
  let after : Engine := { engine with library := engine.library.addAlias nickname name }
  refine ⟨e, after, Prod.ext rejected rfl, ?_, fun other ne => .of_builtin? ?_,
    fun other => Library.mem_names_addAlias_iff, fun other target ne => ?_⟩
  · show ((engine.library.addAlias nickname name).builtin? nickname).isSome = false
    rw [Library.builtin?_addAlias, if_pos rfl, unknown]
    rfl
  · show (engine.library.addAlias nickname name).builtin? other = _
    rw [Library.builtin?_addAlias, if_neg ne]
  · have mem : (nickname, name) ∈
        ((engine.library.addAlias nickname name).addAlias other target).aliases.entries :=
      Bindings.mem_replace_of_ne (Ne.symm ne) stays
    exact Library.ensureConsistent_ne_ok mem unknown

/-- A name of the standard library that is taken for an alias of nothing. -/
theorem printing_alias_stays :
    (Library.standard fun _ => .ended 0).builtins.get? "missing" = none ∧
      ∃ e after, (Engine.new (.standard fun _ => .ended 0)).registerAlias "print" "missing" =
          (.error e, after) ∧
        after.library.hasBuiltin "print" = false ∧
        ∃ e, (after.registerAlias "show" "cmd").1 = .error e := by
  have unknown : (Library.standard fun _ => .ended 0).builtins.get? "missing" = none := rfl
  obtain ⟨e, after, rejected, has, _, _, later⟩ :=
    rejected_alias_stays (.new (.standard fun _ => .ended 0)) "print" unknown
  exact ⟨unknown, e, after, rejected, has, later "show" "cmd" (by decide)⟩

/-- A rejection has an effect: an alias of a function is rejected after it, and was not before. -/
theorem rejection_leaves_a_mark :
    ¬ ∀ nickname name e after,
      (Engine.new (.standard fun _ => .ended 0)).registerAlias nickname name = (.error e, after) →
        after.library.names = (Library.standard fun _ => .ended 0).names ∧
          ∀ other builtin, after.library.builtins.get? other = some builtin →
            (after.registerAlias "show" other).1 = .ok () := by
  intro untouched
  have accepted := (untouched "helper" "missing" _ _ rfl).2 "print" Library.print rfl
  exact absurd accepted (by decide)

end ScriptLang
