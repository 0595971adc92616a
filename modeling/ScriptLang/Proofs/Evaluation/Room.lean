import ScriptLang.Proofs.Evaluation.Sessions
import ScriptLang.Proofs.Grammar.Room

/-!
# Runs within room

A script that there is room to read runs as if there was no limit to it, and after it there is room
for texts that nest as deeply as a process may allow (`Engine.runWithin_of_fits`). One that there is
no room to read is a fault and changes nothing.
-/

namespace ScriptLang

/-- There is room to read a script. -/
def Fits (room : Nat) (source : String) : Prop := parseWithin room source ≠ none

instance (room : Nat) (source : String) : Decidable (Fits room source) :=
  decidable_of_iff ((parseWithin room source).isSome = true) Option.isSome_iff_ne_none

/-- The room for reading after a script. It is more than before only if the script ran. -/
def roomAfter (room : Nat) (source : String) : Nat :=
  match parseWithin room source with
  | some (.ok _) => max room fullRoom
  | _ => room

section
variable {room room' : Nat} {source : String}

/-- With room for it a script is read as it always is. -/
lemma Fits.parseWithin_eq (fits : Fits room source) :
    parseWithin room source = some (parse source) :=
  (ScriptLang.parseWithin_eq room source).resolve_left fits

/-- What fits some room fits more of it. -/
lemma Fits.of_le (fits : Fits room source) (le : room ≤ room') : Fits room' source := fun none =>
  fits (((parseWithin_of_le le source).resolve_left fits).symm.trans none)

/-- A script that there is no room to read makes none. -/
lemma roomAfter_of_none (h : parseWithin room source = none) : roomAfter room source = room := by
  unfold roomAfter
  rw [h]

/-- A script that is not well formed makes no room. -/
lemma roomAfter_of_malformed {e : SyntaxError} (h : parseWithin room source = some (.error e)) :
    roomAfter room source = room := by
  unfold roomAfter
  rw [h]

/-- A script that is well formed makes room. -/
lemma roomAfter_of_program {program : Program}
    (h : parseWithin room source = some (.ok program)) :
    roomAfter room source = max room fullRoom := by
  unfold roomAfter
  rw [h]

/-- The room for reading never gets less. -/
lemma le_roomAfter (room : Nat) (source : String) : room ≤ roomAfter room source := by
  unfold roomAfter
  split
  · exact Nat.le_max_left room fullRoom
  · exact Nat.le_refl room

end

namespace Engine
variable {engine : Engine} {limits : Limits} {room : Nat} {source : String} {options : Options}

/-- A script that there is no room to read is a fault, and changes nothing. -/
lemma runWithin_of_none (h : parseWithin room source = none) :
    engine.runWithin limits room source options =
      (⟨.error (.failed (.fault .stackExhausted)), [], [], options.statistics⟩, engine, room) := by
  unfold runWithin
  rw [h]

/-- A script that is not well formed changes nothing. -/
lemma runWithin_of_malformed {e : SyntaxError} (h : parseWithin room source = some (.error e)) :
    engine.runWithin limits room source options =
      (⟨.error (.malformed e), [], [], options.statistics⟩, engine, room) := by
  unfold runWithin
  rw [h]

/-- A script that is well formed runs, and makes room. -/
lemma runWithin_of_program {program : Program} (h : parseWithin room source = some (.ok program)) :
    engine.runWithin limits room source options =
      ((engine.execute limits program options).1, (engine.execute limits program options).2,
        max room fullRoom) := by
  unfold runWithin
  rw [h]

/-- A script that there is room to read runs as if there was no limit to the room. -/
theorem runWithin_of_fits (fits : Fits room source) :
    engine.runWithin limits room source options =
      ((engine.run limits source options).1, (engine.run limits source options).2,
        roomAfter room source) := by
  have read := fits.parseWithin_eq
  unfold run
  cases parsed : parse source with
  | error e =>
    rw [parsed] at read
    rw [runWithin_of_malformed read, roomAfter_of_malformed read]
  | ok program =>
    rw [parsed] at read
    rw [runWithin_of_program read, roomAfter_of_program read]

/-- The room after a run. -/
lemma room_runWithin :
    (engine.runWithin limits room source options).2.2 = roomAfter room source := by
  by_cases fits : Fits room source
  · rw [runWithin_of_fits fits]
  · have none : parseWithin room source = none := not_not.1 fits
    rw [runWithin_of_none none, roomAfter_of_none none]

/-- No script changes the library. -/
lemma library_runWithin :
    (engine.runWithin limits room source options).2.1.library = engine.library := by
  by_cases fits : Fits room source
  · rw [runWithin_of_fits fits]
    exact library_run ..
  · rw [runWithin_of_none (not_not.1 fits)]

end Engine

end ScriptLang
