import Mathlib.Tactic.Common
import ScriptLang.Environment

/-!
# Environments on top of others

`inner.atop base` is the environment in which the frames of `base` are around those of `inner`. If
the outermost frame of `inner` is a boundary, then no variable of `base` is seen or written to, and
everything that is done to the whole is done to `inner`. Functions of `base` are seen.
-/

namespace ScriptLang.Environment
variable {Var Fun : Type}

/-- An environment with the frames of another around it. -/
def atop (inner base : Environment Var Fun) : Environment Var Fun :=
  ⟨inner.frame, inner.enclosing ++ base.frames⟩

/-- The outermost of a frame and those around it is a boundary. -/
def EndInBoundary : Frame Var Fun → List (Frame Var Fun) → Prop
  | frame, [] => frame.boundary = true
  | _, outer :: rest => EndInBoundary outer rest

/-- The outermost frame of an environment is a boundary. -/
def Sealed (inner : Environment Var Fun) : Prop := EndInBoundary inner.frame inner.enclosing

variable (inner base : Environment Var Fun)

/-- Atop of another environment the frames are those of both. -/
lemma frames_atop : (inner.atop base).frames = inner.frames ++ base.frames := rfl

/-- Atop of another environment the levels of both add up. -/
lemma depth_atop : (inner.atop base).depth = inner.depth + (base.depth + 1) := List.length_append

/-- A new frame is put in front of the inner environment. -/
lemma push_atop (boundary : Bool) :
    (inner.atop base).push boundary = (inner.push boundary).atop base := rfl

/-- A binding is made in the inner environment. -/
lemma bind_atop (name : String) (value : Var) :
    (inner.atop base).bind name value = (inner.bind name value).atop base := rfl

/-- A definition is made in the inner environment. -/
lemma define_atop (name : String) (function : Fun) :
    (inner.atop base).define name function = (inner.define name function).atop base := rfl

/-- A scope of the environment on top is closed there. -/
lemma pop_atop {d : Nat} (h : inner.depth = d + 1) :
    (inner.atop base).pop = inner.pop.atop base := by
  obtain ⟨frame, _ | ⟨outer, rest⟩⟩ := inner
  · cases h
  · rfl

variable {inner} in
/-- A pop takes one level away. -/
lemma depth_pop {d : Nat} (h : inner.depth = d + 1) : inner.pop.depth = d := by
  obtain ⟨frame, _ | ⟨outer, rest⟩⟩ := inner
  · cases h
  · exact Nat.succ.inj h

/-- A function is looked for in the inner environment and then in the one it stands on. -/
lemma function?_atop (name : String) :
    (inner.atop base).function? name = (inner.function? name).or (base.function? name) := by
  unfold function?
  rw [frames_atop, List.findSome?_append]

variable {inner}

/-- Nothing behind a boundary is within reach. -/
lemma EndInBoundary.reach_append {frame : Frame Var Fun} {rest : List (Frame Var Fun)}
    (h : EndInBoundary frame rest) (frames : List (Frame Var Fun)) :
    reach (frame :: rest ++ frames) = reach (frame :: rest) := by
  induction rest generalizing frame with
  | nil =>
    have boundary : frame.boundary = true := h
    simp [reach, boundary]
  | cons outer rest ih =>
    have above : EndInBoundary outer rest := h
    have inner := ih above
    rw [List.cons_append] at inner ⊢
    unfold reach
    rw [List.cons_append, inner]

/-- The variables that are seen are those of the environment on top. -/
lemma Sealed.lookup?_atop (h : inner.Sealed) (name : String) :
    (inner.atop base).lookup? name = inner.lookup? name := by
  have same : reach (inner.frames ++ base.frames) = reach inner.frames := h.reach_append base.frames
  unfold lookup?
  rw [frames_atop, same]

/-- No assignment gets past a boundary. -/
lemma EndInBoundary.assignFrom?_append {frame : Frame Var Fun} {rest : List (Frame Var Fun)}
    (h : EndInBoundary frame rest) (name : String) (value : Var) :
    assignFrom? name value frame (rest ++ base.frames) =
      (assignFrom? name value frame rest).map (·.atop base) := by
  induction rest generalizing frame with
  | nil =>
    have boundary : frame.boundary = true := h
    change assignFrom? name value frame (base.frame :: base.enclosing) = _
    unfold assignFrom?
    rw [if_pos boundary]
    split <;> rfl
  | cons outer rest ih =>
    have above : EndInBoundary outer rest := h
    rw [List.cons_append]
    unfold assignFrom?
    split
    · rfl
    · split
      · rfl
      · rw [ih above]
        cases assignFrom? name value outer rest <;> rfl

/-- A variable that is given a new value is one of the environment on top. -/
lemma Sealed.assign?_atop (h : inner.Sealed) (name : String) (value : Var) :
    (inner.atop base).assign? name value = (inner.assign? name value).map (·.atop base) :=
  EndInBoundary.assignFrom?_append base h name value

/-- A new frame keeps the seal. -/
lemma Sealed.push (h : inner.Sealed) (boundary : Bool) : (inner.push boundary).Sealed := h

/-- A pop keeps the seal. -/
lemma Sealed.pop (h : inner.Sealed) : inner.pop.Sealed := by
  obtain ⟨frame, _ | ⟨outer, rest⟩⟩ := inner
  · exact h
  · exact h

/-- Only the boundaries of frames matter. -/
lemma EndInBoundary.of_boundary {frame frame' : Frame Var Fun} {rest : List (Frame Var Fun)}
    (h : EndInBoundary frame rest) (same : frame'.boundary = frame.boundary) :
    EndInBoundary frame' rest := by
  cases rest with
  | nil => exact same.trans h
  | cons outer rest => exact h

/-- A binding keeps the seal. -/
lemma Sealed.bind (h : inner.Sealed) (name : String) (value : Var) :
    (inner.bind name value).Sealed := EndInBoundary.of_boundary h rfl

/-- A definition keeps the seal. -/
lemma Sealed.define (h : inner.Sealed) (name : String) (function : Fun) :
    (inner.define name function).Sealed := EndInBoundary.of_boundary h rfl

/-- An assignment to some frame keeps the seal and the number of frames. -/
lemma EndInBoundary.assignFrom? {frame : Frame Var Fun} {rest : List (Frame Var Fun)}
    {name : String} {value : Var} {env : Environment Var Fun} (h : EndInBoundary frame rest)
    (e : assignFrom? name value frame rest = some env) :
    env.Sealed ∧ env.enclosing.length = rest.length := by
  induction rest generalizing frame env with
  | nil =>
    unfold Environment.assignFrom? at e
    split at e
    · cases e
      exact ⟨h.of_boundary rfl, rfl⟩
    · cases e
  | cons outer rest ih =>
    have above : EndInBoundary outer rest := h
    unfold Environment.assignFrom? at e
    split at e
    · cases e
      exact ⟨h, rfl⟩
    · split at e
      · cases e
      · obtain ⟨inner, found, rfl⟩ := Option.map_eq_some_iff.1 e
        obtain ⟨isSealed, length⟩ := ih above found
        exact ⟨isSealed, congrArg (· + 1) length⟩

/-- An assignment keeps the seal and the depth. -/
lemma Sealed.assign? {env : Environment Var Fun} (h : inner.Sealed) {name : String} {value : Var}
    (e : inner.assign? name value = some env) : env.Sealed ∧ env.depth = inner.depth :=
  EndInBoundary.assignFrom? h e

end ScriptLang.Environment
