import Mathlib.Tactic.Common
import ScriptLang.Environment

/-!
# What environments hold

A property of variables and one of functions that all those in an environment have. No operation
brings in anything but what it is given.
-/

namespace ScriptLang

variable {Var Fun : Type} {pv : Var → Prop} {pf : Fun → Prop}

/-- The variables and functions of a frame have the properties. -/
structure Frame.Holds (pv : Var → Prop) (pf : Fun → Prop) (frame : Frame Var Fun) : Prop where
  values {name : String} {value : Var} : frame.values.get? name = some value → pv value
  functions {name : String} {function : Fun} :
    frame.functions.get? name = some function → pf function

/-- An empty frame holds only what is asked for. -/
lemma Frame.holds_empty (boundary : Bool) : (Frame.empty boundary : Frame Var Fun).Holds pv pf :=
  ⟨nofun, nofun⟩

/-- A frame that is given a value of the kind still holds only such values. -/
lemma Frame.Holds.setIn {frame : Frame Var Fun} (h : frame.Holds pv pf) (name : String)
    {value : Var} (hv : pv value) : (Environment.setIn frame name value).Holds pv pf := by
  refine ⟨fun {other found} e => ?_, h.functions⟩
  have e : (frame.values.set name value).get? other = some found := e
  rw [Bindings.get?_set] at e
  split at e
  · cases e
    exact hv
  · exact h.values e

namespace Environment

/-- All variables and functions in an environment have the properties. -/
def Holds (pv : Var → Prop) (pf : Fun → Prop) (env : Environment Var Fun) : Prop :=
  ∀ frame ∈ env.frames, frame.Holds pv pf

variable {env : Environment Var Fun}

/-- The first environment holds only what is asked for. -/
lemma holds_root : (root : Environment Var Fun).Holds pv pf := by
  intro frame mem
  obtain rfl := List.mem_singleton.1 mem
  exact Frame.holds_empty true

/-- The frames whose variables are visible are among all frames. -/
lemma mem_reach {frame : Frame Var Fun} {frames : List (Frame Var Fun)} (h : frame ∈ reach frames) :
    frame ∈ frames := by
  induction frames with
  | nil => exact h
  | cons first rest ih =>
    unfold reach at h
    split at h
    · exact List.mem_singleton.1 h ▸ List.mem_cons_self
    · cases h with
      | head => exact List.mem_cons_self
      | tail _ h => exact List.mem_cons_of_mem _ (ih h)

namespace Holds

/-- A value that is found is of the kind. -/
lemma lookup? (h : env.Holds pv pf) {name : String} {value : Var}
    (e : env.lookup? name = some value) : pv value := by
  obtain ⟨frame, mem, e⟩ := List.exists_of_findSome?_eq_some e
  exact (h frame (mem_reach mem)).values e

/-- A function that is found is of the kind. -/
lemma function? (h : env.Holds pv pf) {name : String} {function : Fun}
    (e : env.function? name = some function) : pf function := by
  obtain ⟨frame, mem, e⟩ := List.exists_of_findSome?_eq_some e
  exact (h frame mem).functions e

/-- A new frame brings in nothing of another kind. -/
lemma push (h : env.Holds pv pf) (boundary : Bool) : (env.push boundary).Holds pv pf :=
  List.forall_mem_cons.2 ⟨Frame.holds_empty boundary, h⟩

/-- What is left after a pop is of the kind. -/
lemma pop (h : env.Holds pv pf) : env.pop.Holds pv pf := by
  obtain ⟨frame, enclosing⟩ := env
  cases enclosing with
  | nil => exact h
  | cons outer rest => exact (List.forall_mem_cons.1 h).2

/-- A binding of a value of the kind brings in nothing else. -/
lemma bind (h : env.Holds pv pf) (name : String) {value : Var} (hv : pv value) :
    (env.bind name value).Holds pv pf := by
  obtain ⟨first, rest⟩ := List.forall_mem_cons.1 h
  exact List.forall_mem_cons.2 ⟨first.setIn name hv, rest⟩

/-- An assignment of a value of the kind to some frame brings in nothing else. -/
lemma assignFrom? {frame : Frame Var Fun} {rest : List (Frame Var Fun)} {name : String}
    {value : Var} (h : ∀ f ∈ frame :: rest, f.Holds pv pf) (hv : pv value)
    (e : assignFrom? name value frame rest = some env) : env.Holds pv pf := by
  induction rest generalizing frame env with
  | nil =>
    unfold Environment.assignFrom? at e
    split at e
    · cases e
      have whole : Environment.Holds pv pf ⟨frame, []⟩ := h
      exact whole.bind name hv
    · cases e
  | cons outer rest ih =>
    unfold Environment.assignFrom? at e
    split at e
    · cases e
      have whole : Environment.Holds pv pf ⟨frame, outer :: rest⟩ := h
      exact whole.bind name hv
    · split at e
      · cases e
      · obtain ⟨inner, found, rfl⟩ := Option.map_eq_some_iff.1 e
        obtain ⟨first, others⟩ := List.forall_mem_cons.1 h
        exact List.forall_mem_cons.2 ⟨first, ih others found⟩

/-- An assignment of a value of the kind brings in nothing else. -/
lemma assign? {env' : Environment Var Fun} (h : env.Holds pv pf) {name : String} {value : Var}
    (hv : pv value) (e : env.assign? name value = some env') : env'.Holds pv pf :=
  assignFrom? h hv e

/-- A definition of a function of the kind brings in nothing else. -/
lemma define (h : env.Holds pv pf) (name : String) {function : Fun} (hf : pf function) :
    (env.define name function).Holds pv pf := by
  obtain ⟨first, rest⟩ := List.forall_mem_cons.1 h
  refine List.forall_mem_cons.2 ⟨⟨first.values, fun {other found} e => ?_⟩, rest⟩
  have e : (env.frame.functions.set name function).get? other = some found := e
  rw [Bindings.get?_set] at e
  split at e
  · cases e
    exact hf
  · exact first.functions e

end Holds

end Environment

end ScriptLang
