import Mathlib.Tactic.Common
import ScriptLang.Environment

/-!
# What becomes of frames

Two relations between the environments before and after a part of a run. `Environment.Keeps` is for
expressions: the frames up to the nearest boundary may see new values under their names, and that is
all. `Environment.Extends` is for statements, which may also bring new names into the current frame.
Opening a scope, whatever goes on in it by `Extends`, and closing it again is a step by `Keeps`, and
no step at all if the scope is a boundary.
-/

namespace ScriptLang

namespace Bindings
variable {α : Type}

/-- A name is not found if and only if no entry has it. -/
lemma find?_eq_none_iff {name : String} {entries : List (String × α)} :
    find? name entries = none ↔ name ∉ entries.map (·.1) := by
  induction entries with
  | nil => simp [find?]
  | cons entry rest ih =>
    obtain ⟨key, old⟩ := entry
    by_cases h : key = name
    · simp [find?, h]
    · simp [find?, h, ih, Ne.symm h]

/-- A replacement of a name that is there keeps all names. -/
lemma map_replace_of_mem {name : String} {value : α} {entries : List (String × α)}
    (h : name ∈ entries.map (·.1)) :
    (replace name value entries).map (·.1) = entries.map (·.1) := by
  induction entries with
  | nil => cases h
  | cons entry rest ih =>
    obtain ⟨key, old⟩ := entry
    by_cases same : key = name
    · simp [replace, same]
    · have h : name ∈ rest.map (·.1) := by simpa [Ne.symm same] using h
      simp [replace, same, ih h]

/-- A replacement of a name that is not there adds it at the end. -/
lemma map_replace_of_not_mem {name : String} {value : α} {entries : List (String × α)}
    (h : name ∉ entries.map (·.1)) :
    (replace name value entries).map (·.1) = entries.map (·.1) ++ [name] := by
  induction entries with
  | nil => rfl
  | cons entry rest ih =>
    obtain ⟨key, old⟩ := entry
    have same : key ≠ name := by
      rintro rfl
      simp at h
    have h : name ∉ rest.map (·.1) := fun mem => h (List.mem_cons_of_mem _ mem)
    simp [replace, same, ih h]

/-- A new value under a name that is there brings no name in. -/
lemma names_set_of_contains {b : Bindings α} {name : String} (h : b.contains name = true)
    (value : α) : (b.set name value).names = b.names := by
  apply map_replace_of_mem
  by_contra absent
  have h : (find? name b.entries).isSome = true := h
  rw [find?_eq_none_iff.2 absent] at h
  cases h

/-- Names never go away. -/
lemma names_prefix_set (b : Bindings α) (name : String) (value : α) :
    b.names <+: (b.set name value).names := by
  by_cases h : name ∈ b.entries.map (·.1)
  · have eq : (b.set name value).names = b.names := map_replace_of_mem h
    exact eq ▸ List.prefix_rfl
  · have eq : (b.set name value).names = b.names ++ [name] := map_replace_of_not_mem h
    exact eq ▸ List.prefix_append _ _

end Bindings

variable {Var Fun : Type}

/-- A frame with the same names and the same functions, under which only values may differ. -/
structure Frame.Renewed (before after : Frame Var Fun) : Prop where
  boundary : after.boundary = before.boundary
  names : after.values.names = before.values.names
  functions : after.functions = before.functions

/-- A frame with the same names and possibly more. -/
structure Frame.Extended (before after : Frame Var Fun) : Prop where
  boundary : after.boundary = before.boundary
  names : before.values.names <+: after.values.names
  functions : before.functions.names <+: after.functions.names

namespace Frame
variable {before middle after : Frame Var Fun}

/-- A frame is renewed by itself. -/
lemma Renewed.refl (frame : Frame Var Fun) : frame.Renewed frame := ⟨rfl, rfl, rfl⟩

/-- What is renewed twice is renewed. -/
lemma Renewed.trans (h : before.Renewed middle) (h' : middle.Renewed after) :
    before.Renewed after :=
  ⟨h'.boundary.trans h.boundary, h'.names.trans h.names, h'.functions.trans h.functions⟩

/-- What is renewed is extended by no names. -/
lemma Renewed.extended (h : before.Renewed after) : before.Extended after :=
  ⟨h.boundary, h.names ▸ List.prefix_rfl, h.functions ▸ List.prefix_rfl⟩

/-- What is extended twice is extended. -/
lemma Extended.trans (h : before.Extended middle) (h' : middle.Extended after) :
    before.Extended after :=
  ⟨h'.boundary.trans h.boundary, h.names.trans h'.names, h.functions.trans h'.functions⟩

end Frame

/-- The same number of frames, of which those up to and with the first boundary are renewed and
those beyond it are the same. -/
inductive FramesKept : List (Frame Var Fun) → List (Frame Var Fun) → Prop where
  | nil : FramesKept [] []
  | boundary {before after rest} : before.boundary = true → before.Renewed after →
    FramesKept (before :: rest) (after :: rest)
  | cons {before after rest rest'} : before.boundary = false → before.Renewed after →
    FramesKept rest rest' → FramesKept (before :: rest) (after :: rest')

namespace FramesKept
variable {before middle after : List (Frame Var Fun)}

/-- Frames are kept if nothing happens. -/
lemma refl (frames : List (Frame Var Fun)) : FramesKept frames frames := by
  induction frames with
  | nil => exact .nil
  | cons frame rest ih =>
    cases h : frame.boundary with
    | true => exact .boundary h (.refl frame)
    | false => exact .cons h (.refl frame) ih

/-- Frames that are kept twice are kept. -/
lemma trans (h : FramesKept before middle) (h' : FramesKept middle after) :
    FramesKept before after := by
  induction h generalizing after with
  | nil => exact h'
  | boundary hb hr =>
    -- The frames in the middle have their boundaries where those before have theirs.
    cases h' with
    | boundary _ hr' => exact .boundary hb (hr.trans hr')
    | cons hb' => exact absurd (hb.symm.trans (hr.boundary.symm.trans hb')) (by simp)
  | cons hb hr _ ih =>
    cases h' with
    | boundary hb' => exact absurd (hb.symm.trans (hr.boundary.symm.trans hb')) (by simp)
    | cons _ hr' h' => exact .cons hb (hr.trans hr') (ih h')

/-- A change to the first frame alone. -/
lemma of_renewed {frame frame' : Frame Var Fun} {rest : List (Frame Var Fun)}
    (h : frame.Renewed frame') : FramesKept (frame :: rest) (frame' :: rest) := by
  cases hb : frame.boundary with
  | true => exact .boundary hb h
  | false => exact .cons hb h (.refl rest)

/-- As many frames are kept as there are. -/
lemma length_eq (h : FramesKept before after) : after.length = before.length := by
  induction h with
  | nil => rfl
  | boundary => rfl
  | cons _ _ _ ih => exact congrArg (· + 1) ih

end FramesKept

namespace Environment

/-- What evaluating an expression may do to an environment. -/
structure Keeps (before after : Environment Var Fun) : Prop where
  depth : after.depth = before.depth
  frames : FramesKept before.frames after.frames

/-- What running a statement may do to an environment. -/
structure Extends (before after : Environment Var Fun) : Prop where
  depth : after.depth = before.depth
  frame : before.frame.Extended after.frame
  enclosing : if before.frame.boundary then after.enclosing = before.enclosing
    else FramesKept before.enclosing after.enclosing

variable {before middle after env : Environment Var Fun}

namespace Keeps

/-- An environment is kept if its frames are. -/
lemma of_frames (h : FramesKept before.frames after.frames) : before.Keeps after :=
  ⟨Nat.succ.inj h.length_eq, h⟩

/-- An environment is kept if nothing happens. -/
lemma refl (env : Environment Var Fun) : env.Keeps env := of_frames (.refl _)

/-- What is kept twice is kept. -/
lemma trans (h : before.Keeps middle) (h' : middle.Keeps after) : before.Keeps after :=
  of_frames (h.frames.trans h'.frames)

end Keeps

namespace Extends

/-- What is extended twice is extended. -/
lemma trans (h : before.Extends middle) (h' : middle.Extends after) : before.Extends after := by
  refine ⟨h'.depth.trans h.depth, h.frame.trans h'.frame, ?_⟩
  have first := h.enclosing
  have second := h'.enclosing
  rw [h.frame.boundary] at second
  split
  case isTrue boundary =>
    rw [if_pos boundary] at first second
    exact second.trans first
  case isFalse boundary =>
    rw [if_neg boundary] at first second
    exact first.trans second

/-- A change to the current frame alone. -/
lemma of_frame (h : before.frame.Extended after.frame) (e : after.enclosing = before.enclosing) :
    before.Extends after := by
  refine ⟨congrArg List.length e, h, ?_⟩
  split
  · exact e
  · rw [e]
    exact .refl _

end Extends

/-- What is kept is extended by no names. -/
lemma Keeps.extends (h : before.Keeps after) : before.Extends after := by
  refine ⟨h.depth, ?_, ?_⟩
  · cases before
    cases after
    cases h.frames with
    | boundary _ hr => exact hr.extended
    | cons _ hr => exact hr.extended
  · cases before
    cases after
    cases h.frames with
    | boundary hb => rw [if_pos hb]
    | cons hb _ h =>
      rw [if_neg (Bool.eq_false_iff.1 hb)]
      exact h

/-- A new value of a name that is there renews the frame. -/
lemma renewed_setIn {frame : Frame Var Fun} {name : String} (h : frame.values.contains name = true)
    (value : Var) : frame.Renewed (setIn frame name value) :=
  ⟨rfl, Bindings.names_set_of_contains h value, rfl⟩

/-- A value of any name extends the frame. -/
lemma extended_setIn (frame : Frame Var Fun) (name : String) (value : Var) :
    frame.Extended (setIn frame name value) :=
  ⟨rfl, Bindings.names_prefix_set _ _ _, List.prefix_rfl⟩

/-- An assignment keeps the frames, whichever it finds the name in. -/
lemma framesKept_of_assignFrom? {name : String} {value : Var} {frame : Frame Var Fun}
    {rest : List (Frame Var Fun)} (h : assignFrom? name value frame rest = some env) :
    FramesKept (frame :: rest) env.frames := by
  induction rest generalizing frame env with
  | nil =>
    unfold assignFrom? at h
    split at h
    case isTrue found =>
      cases h
      exact .of_renewed (renewed_setIn found value)
    case isFalse => cases h
  | cons outer rest ih =>
    unfold assignFrom? at h
    split at h
    case isTrue found =>
      cases h
      exact .of_renewed (renewed_setIn found value)
    case isFalse =>
      split at h
      case isTrue => cases h
      case isFalse open_ =>
        obtain ⟨inner, found, rfl⟩ := Option.map_eq_some_iff.1 h
        exact .cons (Bool.eq_false_iff.2 open_) (.refl frame) (ih found)

/-- An assignment keeps the environment. -/
lemma keeps_of_assign? {name : String} {value : Var} (h : before.assign? name value = some after) :
    before.Keeps after :=
  .of_frames (framesKept_of_assignFrom? h)

/-- A binding extends the environment. -/
lemma extends_bind (env : Environment Var Fun) (name : String) (value : Var) :
    env.Extends (env.bind name value) :=
  .of_frame (extended_setIn env.frame name value) rfl

/-- A declaration extends the environment. -/
lemma extends_declare (env : Environment Var Fun) (name : String) (value : Var) :
    env.Extends (env.declare name value) := by
  unfold declare
  -- A declaration of a name that an enclosing frame has assigns to that one.
  cases h : env.assign? name value with
  | none => exact extends_bind env name value
  | some after => exact (keeps_of_assign? h).extends

/-- A definition extends the environment. -/
lemma extends_define (env : Environment Var Fun) (name : String) (function : Fun) :
    env.Extends (env.define name function) :=
  .of_frame ⟨rfl, List.prefix_rfl, Bindings.names_prefix_set _ _ _⟩ rfl

/-- A scope that is not a boundary keeps the environment around it. -/
lemma keeps_pop_of_push (h : (env.push false).Extends after) : env.Keeps after.pop := by
  have kept : FramesKept env.frames after.enclosing := h.enclosing
  obtain ⟨frame, enclosing⟩ := after
  apply Keeps.of_frames
  cases kept with
  | boundary hb hr => exact .boundary hb hr
  | cons hb hr kept => exact .cons hb hr kept

/-- A scope that is a boundary leaves the environment around it as it is. -/
lemma pop_of_push (h : (env.push true).Extends after) : after.pop = env := by
  have same : after.enclosing = env.frames := h.enclosing
  obtain ⟨frame, enclosing⟩ := after
  obtain rfl : enclosing = env.frames := same
  rfl

end Environment

end ScriptLang
