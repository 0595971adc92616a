import ScriptLang.Bindings

/-!
# Environments

The names that a running script can use, as a stack of frames. The body of a loop runs in a frame of
its own that sees the variables of the frame around it; the body of a function runs in a frame that
is a boundary, beyond which no variable is seen. Functions are seen through every frame.

A declaration of a name that is already visible gives it a new value where it lives, so that only
the names that are new to the body of a loop go away with it.

The types of variables and of functions are parameters: nothing here looks inside either.
-/

namespace ScriptLang

/-- The names of one scope. -/
structure Frame (Var Fun : Type) where
  boundary : Bool
  values : Bindings Var
  functions : Bindings Fun

/-- A frame without names. -/
def Frame.empty {Var Fun : Type} (boundary : Bool) : Frame Var Fun :=
  ⟨boundary, .empty, .empty⟩

/-- The current frame and the frames around it, the nearest first. -/
structure Environment (Var Fun : Type) where
  frame : Frame Var Fun
  enclosing : List (Frame Var Fun)

namespace Environment

variable {Var Fun : Type}

/-- The environment in which a script starts: one boundary frame without names. -/
def root : Environment Var Fun := ⟨.empty true, []⟩

instance : Inhabited (Environment Var Fun) := ⟨root⟩

/-- All frames, the current one first. -/
def frames (env : Environment Var Fun) : List (Frame Var Fun) :=
  env.frame :: env.enclosing

/-- How many frames are around the current one. -/
def depth (env : Environment Var Fun) : Nat := env.enclosing.length

/-- Opens a scope: the body of a function if `boundary` is set, else the body of a loop. -/
def push (env : Environment Var Fun) (boundary : Bool) :
    Environment Var Fun :=
  ⟨.empty boundary, env.frame :: env.enclosing⟩

/-- Closes the current scope. The root stays. -/
def pop (env : Environment Var Fun) : Environment Var Fun :=
  match env.enclosing with
  | [] => env
  | outer :: rest => ⟨outer, rest⟩

/-- The frames whose variables are visible: up to the first boundary. -/
def reach : List (Frame Var Fun) → List (Frame Var Fun)
  | [] => []
  | frame :: rest => if frame.boundary then [frame] else frame :: reach rest

/-- The value of a variable. -/
def lookup? (env : Environment Var Fun) (name : String) : Option Var :=
  (reach env.frames).findSome? (·.values.get? name)

/-- Whether a variable is visible. -/
def isDefined (env : Environment Var Fun) (name : String) : Bool :=
  (env.lookup? name).isSome

/-- The function that a name stands for. -/
def function? (env : Environment Var Fun) (name : String) : Option Fun :=
  env.frames.findSome? (·.functions.get? name)

/-- A frame in which a variable has a new value. -/
def setIn (frame : Frame Var Fun) (name : String) (value : Var) :
    Frame Var Fun :=
  { frame with values := frame.values.set name value }

/-- Gives a variable a new value in the innermost frame where it is visible, among a frame and those
around it. -/
def assignFrom? (name : String) (value : Var) :
    Frame Var Fun → List (Frame Var Fun) → Option (Environment Var Fun)
  | frame, [] =>
    if frame.values.contains name then some ⟨setIn frame name value, []⟩ else none
  | frame, outer :: rest =>
    if frame.values.contains name then some ⟨setIn frame name value, outer :: rest⟩
    else if frame.boundary then none
    else (assignFrom? name value outer rest).map fun env => ⟨frame, env.frame :: env.enclosing⟩

/-- Gives a visible variable a new value, in the frame where it lives. -/
def assign? (env : Environment Var Fun) (name : String) (value : Var) :
    Option (Environment Var Fun) :=
  assignFrom? name value env.frame env.enclosing

/-- Gives a name a value in the current frame, whatever is visible under it. -/
def bind (env : Environment Var Fun) (name : String) (value : Var) :
    Environment Var Fun :=
  { env with frame := setIn env.frame name value }

/-- Declares a variable: a new value where the name is visible, else a new name in the current
frame. -/
def declare (env : Environment Var Fun) (name : String) (value : Var) :
    Environment Var Fun :=
  (env.assign? name value).getD (env.bind name value)

/-- Gives a name a function in the current frame. -/
def define (env : Environment Var Fun) (name : String) (function : Fun) :
    Environment Var Fun :=
  { env with frame := { env.frame with functions := env.frame.functions.set name function } }

/-- The entries that are the first of their name. -/
def firstOfName : List (String × Var) → List (String × Var)
  | [] => []
  | (name, value) :: rest => (name, value) :: (firstOfName rest).filter (·.1 ≠ name)

/-- All visible variables with their values, sorted by name. -/
def visible (env : Environment Var Fun) : List (String × Var) :=
  Bindings.sortByName (firstOfName ((reach env.frames).flatMap (·.values.entries)))

/-- A push puts an empty frame in front. -/
@[simp] theorem frames_push (env : Environment Var Fun) (boundary : Bool) :
    (env.push boundary).frames = .empty boundary :: env.frames := rfl

/-- A push adds one level. -/
@[simp] theorem depth_push (env : Environment Var Fun) (boundary : Bool) :
    (env.push boundary).depth = env.depth + 1 := rfl

/-- A scope that is closed as it was opened leaves no trace. -/
@[simp] theorem pop_push (env : Environment Var Fun) (boundary : Bool) :
    (env.push boundary).pop = env := rfl

/-- A name that was bound has its value, and every other name the one it had. -/
theorem lookup?_bind (env : Environment Var Fun) (name other : String) (value : Var) :
    (env.bind name value).lookup? other =
      if name = other then some value else env.lookup? other := by
  by_cases boundary : env.frame.boundary <;> by_cases same : name = other <;>
    simp [lookup?, frames, bind, setIn, reach, List.findSome?_cons, boundary, same]

end Environment

end ScriptLang
