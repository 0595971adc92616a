import Mathlib.Data.List.Basic
import Mathlib.Data.PFun
import ScriptLang.Proofs.Environment.Copying

/-!
# Frames linked by their places

An environment as a host keeps it that has no stack of its own: all frames in one list, each with
the place of the frame around it, and the place of the current frame. To find a name is to walk from
place to place until the name is found, a boundary is met or there is no frame around. Nothing in
the shape of such a list says that a walk ends, or that the places lead from each frame to the one
around it, so walks are loops of which the result may be undefined.

Whatever requests are made from the start, the list stays a chain (`Arena.Chained`), all walks end,
and they agree with each other and with the environment that the requests lead to
(`Environment.linked_frames_stay_chained`). `Environment.linked` is the list that an environment
stands for, and `Environment.respond?_linked` the step from one to the next.
-/

namespace ScriptLang

variable {Var Fun : Type}

/-- A frame with the place of the frame around it. -/
structure LinkedFrame (Var Fun : Type) extends Frame Var Fun where
  parent : Option Nat

/-- Linked frames, the place of the current one, and the places that were current before each of the
open scopes, the last first. -/
structure Arena (Var Fun : Type) where
  frames : List (LinkedFrame Var Fun)
  current : Nat
  previous : List Nat

/-- The result of a walk over linked frames, if the walk ends and meets no place without a frame. -/
abbrev Walk := Part

/-- A frame with a change to what it holds. -/
def LinkedFrame.modify (change : Frame Var Fun → Frame Var Fun) (linked : LinkedFrame Var Fun) :
    LinkedFrame Var Fun :=
  { linked with toFrame := change linked.toFrame }

/-- The entries of a map and, behind them, those of a list under names that are new. -/
def Bindings.addNew {α : Type} (seen : Bindings α) (entries : List (String × α)) : Bindings α :=
  entries.foldl (fun seen (name, value) =>
    if seen.contains name then seen else seen.set name value) seen

namespace Arena

/-- One boundary without a frame around it. -/
def root : Arena Var Fun := ⟨[⟨.empty true, none⟩], 0, []⟩

/-- Opens a scope. -/
def enter (a : Arena Var Fun) (boundary : Bool) : Arena Var Fun where
  frames := a.frames ++ [⟨.empty boundary, some a.current⟩]
  current := a.frames.length
  previous := a.current :: a.previous

/-- Closes the scope that was opened last, if there is one. -/
def leave (a : Arena Var Fun) : Arena Var Fun :=
  match a.previous with
  | [] => a
  | outer :: rest => ⟨a.frames.dropLast, outer, rest⟩

/-- Changes what the frame at a place holds. -/
def modify (a : Arena Var Fun) (place : Nat) (change : Frame Var Fun → Frame Var Fun) :
    Arena Var Fun :=
  { a with frames := a.frames.modify place (.modify change) }

/-- The frame at a place. -/
def frame? (a : Arena Var Fun) (place : Nat) : Walk (LinkedFrame Var Fun) := a.frames[place]?

/-- One step of the walk to the frame that has a variable, up to the first boundary. -/
def ownerStep (a : Arena Var Fun) (name : String) : Option Nat →. Option Nat ⊕ Option Nat
  | none => return .inl none
  | some place => do
    let frame ← a.frame? place
    return if frame.values.contains name then .inl (some place)
      else if frame.boundary then .inl none
      else .inr frame.parent

/-- One step of the walk that collects variables, up to the first boundary. Each name keeps the
value that it was seen with first. -/
def visibleStep (a : Arena Var Fun) :
    Bindings Var × Option Nat →. Bindings Var ⊕ Bindings Var × Option Nat
  | (seen, none) => return .inl seen
  | (seen, some place) => do
    let frame ← a.frame? place
    let seen := seen.addNew frame.values.entries
    return if frame.boundary then .inl seen else .inr (seen, frame.parent)

/-- One step of the walk to the function that a name stands for. -/
def functionStep (a : Arena Var Fun) (name : String) : Option Nat →. Option Fun ⊕ Option Nat
  | none => return .inl none
  | some place => do
    let frame ← a.frame? place
    return match frame.functions.get? name with
      | some function => .inl (some function)
      | none => .inr frame.parent

/-- The place of the frame that has a variable. -/
def owner? (a : Arena Var Fun) (name : String) : Walk (Option Nat) :=
  (a.ownerStep name).fix (some a.current)

/-- Whether a variable is visible. -/
def isDefined? (a : Arena Var Fun) (name : String) : Walk Bool := do
  return (← a.owner? name).isSome

/-- The value of a variable. -/
def lookup? (a : Arena Var Fun) (name : String) : Walk (Option Var) := do
  match ← a.owner? name with
  | none => return none
  | some place => return (← a.frame? place).values.get? name

/-- All visible variables. -/
def visible? (a : Arena Var Fun) : Walk (Bindings Var) := a.visibleStep.fix (.empty, some a.current)

/-- The function that a name stands for. -/
def function? (a : Arena Var Fun) (name : String) : Walk (Option Fun) :=
  (a.functionStep name).fix (some a.current)

/-- Declares a variable: a new value in the frame that has it, else in the current frame. -/
def declare? (a : Arena Var Fun) (name : String) (value : Var) : Walk (Arena Var Fun) := do
  let owner ← a.owner? name
  return a.modify (owner.getD a.current) (Environment.setIn · name value)

/-- Gives a visible variable a new value. -/
def assign? (a : Arena Var Fun) (name : String) (value : Var) :
    Walk (Option (Arena Var Fun)) := do
  let owner ← a.owner? name
  return owner.map (a.modify · (Environment.setIn · name value))

/-- Gives a name a value in the current frame. -/
def bind (a : Arena Var Fun) (name : String) (value : Var) : Arena Var Fun :=
  a.modify a.current (Environment.setIn · name value)

/-- Gives a name a function in the current frame. -/
def define (a : Arena Var Fun) (name : String) (function : Fun) : Arena Var Fun :=
  a.modify a.current fun frame => { frame with functions := frame.functions.set name function }

/-- Serves a request. -/
def respond? (request : Request Var Fun) (a : Arena Var Fun) :
    Walk (Answer Var Fun × Arena Var Fun) :=
  match request with
  | .enter boundary => return (.done, a.enter boundary)
  | .leave => return (.done, a.leave)
  | .declare name value => return (.done, ← a.declare? name value)
  | .assign name value => do
    match ← a.assign? name value with
    | some a' => return (.done, a')
    | none => return (.refused (.undeclaredName name), a)
  | .bind name value => return (.done, a.bind name value)
  | .define name function => return (.done, a.define name function)
  | .lookup name => do
    match ← a.lookup? name with
    | some value => return (.value value, a)
    | none => return (.refused (.undefinedName name), a)
  | .isDefined name => return (.truth (← a.isDefined? name), a)
  | .visible => return (.listed (Bindings.sortByName (← a.visible?).entries), a)
  | .function name => return (.function (← a.function? name), a)

/-- Serves requests one after the other. -/
def serve? : List (Request Var Fun) → Arena Var Fun →
    Walk (List (Answer Var Fun) × Arena Var Fun)
  | [], a => return ([], a)
  | request :: rest, a => do
    let (answer, a) ← a.respond? request
    let (answers, a) ← a.serve? rest
    return (answer :: answers, a)

end Arena

namespace Environment
open Bindings (Distinct find?)

/-- The environment that requests lead to. -/
def after (env : Environment Var Fun) : List (Request Var Fun) → Environment Var Fun
  | [] => env
  | request :: rest => (respond request env).2.after rest

/-- The place of the nearest of some frames, of which each outer one stands before it. -/
def top? : List (Frame Var Fun) → Option Nat
  | [] => none
  | _ :: rest => some rest.length

/-- Frames with their links, the outermost first. -/
def linkedFrames : List (Frame Var Fun) → List (LinkedFrame Var Fun)
  | [] => []
  | frame :: rest => linkedFrames rest ++ [⟨frame, top? rest⟩]

/-- The list that an environment stands for. -/
def linked (env : Environment Var Fun) : Arena Var Fun :=
  ⟨linkedFrames env.frames, env.depth, (List.range env.depth).reverse⟩

/-- There is a linked frame for every frame. -/
@[simp] lemma length_linkedFrames (frames : List (Frame Var Fun)) :
    (linkedFrames frames).length = frames.length := by
  induction frames with
  | nil => rfl
  | cons frame rest ih => rw [linkedFrames, List.length_append, ih, List.length_singleton,
      List.length_cons]

/-- A push is the entry of a scope. -/
lemma linked_push (env : Environment Var Fun) (boundary : Bool) :
    (env.push boundary).linked = env.linked.enter boundary := by
  have current : env.linked.frames.length = env.depth + 1 := length_linkedFrames _
  unfold Arena.enter
  rw [current]
  show Arena.mk _ _ (List.range (env.depth + 1)).reverse = _
  rw [List.range_succ, List.reverse_append]
  rfl

/-- A pop leaves the scope. -/
lemma linked_pop (env : Environment Var Fun) : env.pop.linked = env.linked.leave := by
  obtain ⟨frame, enclosing⟩ := env
  cases enclosing with
  | nil => rfl
  | cons outer rest =>
    have previous : (List.range (rest.length + 1)).reverse =
        rest.length :: (List.range rest.length).reverse := by
      rw [List.range_succ, List.reverse_append]
      rfl
    unfold linked Arena.leave depth
    dsimp only [List.length_cons]
    rw [previous]
    exact congrArg (Arena.mk · _ _) List.dropLast_concat.symm

variable {a : Arena Var Fun} {frames : List (Frame Var Fun)}

/-- The place of the frame that has a variable, among frames of which the nearest is the first. -/
def ownerIn? (name : String) : List (Frame Var Fun) → Option Nat
  | [] => none
  | frame :: rest =>
    if frame.values.contains name then some rest.length
    else if frame.boundary then none
    else ownerIn? name rest

/-- The frames behind the first are linked in an earlier part of the list. -/
lemma prefix_of_cons {frame : Frame Var Fun} (h : linkedFrames (frame :: frames) <+: a.frames) :
    linkedFrames frames <+: a.frames :=
  (List.prefix_append _ _).trans h

/-- The first frame stands at the place of its number, linked to the next. -/
lemma getElem?_of_prefix {frame : Frame Var Fun}
    (h : linkedFrames (frame :: frames) <+: a.frames) :
    a.frames[frames.length]? = some ⟨frame, top? frames⟩ := by
  obtain ⟨others, e⟩ := h
  have place : frames.length = (linkedFrames frames).length := (length_linkedFrames frames).symm
  rw [← e, linkedFrames, List.append_assoc, place, List.getElem?_append_right (Nat.le_refl _),
    Nat.sub_self]
  rfl

/-- The first frame is found at the place of its number. -/
lemma frame?_of_prefix {frame : Frame Var Fun}
    (h : linkedFrames (frame :: frames) <+: a.frames) :
    a.frame? frames.length = .some ⟨frame, top? frames⟩ := by
  rw [Arena.frame?, getElem?_of_prefix h, Part.coe_some]

/-- A walk goes on as its next step says. -/
lemma fix_of_step {α β : Type} {step : α →. β ⊕ α} {a : α} {next : β ⊕ α}
    (h : step a = .some next) : step.fix a = next.elim .some step.fix := by
  cases next with
  | inl b => exact Part.eq_some_iff.2 (PFun.fix_stop (Part.eq_some_iff.1 h))
  | inr a' => exact PFun.fix_fwd_eq (Part.eq_some_iff.1 h)

/-- The walk for the owner of a name comes to its end, and finds the frame. -/
lemma fix_ownerStep (h : linkedFrames frames <+: a.frames) (name : String) :
    (a.ownerStep name).fix (top? frames) = .some (ownerIn? name frames) := by
  induction frames with
  | nil =>
    have step : a.ownerStep name none = .some (.inl none) := rfl
    exact fix_of_step step
  | cons frame rest ih =>
    have step : a.ownerStep name (top? (frame :: rest)) = .some
        (if frame.values.contains name then .inl (some rest.length)
          else if frame.boundary then .inl none else .inr (top? rest)) := by
      rw [top?, Arena.ownerStep, frame?_of_prefix h, Part.bind_eq_bind, Part.bind_some]
      rfl
    rw [fix_of_step step, ownerIn?]
    split
    · rfl
    · split
      · rfl
      · exact ih (prefix_of_cons h)

/-- The walk for a function comes to its end, and finds it. -/
lemma fix_functionStep (h : linkedFrames frames <+: a.frames) (name : String) :
    (a.functionStep name).fix (top? frames) = .some (functionIn? frames name) := by
  induction frames with
  | nil =>
    have step : a.functionStep name none = .some (.inl none) := rfl
    exact fix_of_step step
  | cons frame rest ih =>
    have step : a.functionStep name (top? (frame :: rest)) = .some
        ((frame.functions.get? name).elim (.inr (top? rest)) fun function =>
          .inl (some function)) := by
      rw [top?, Arena.functionStep, frame?_of_prefix h, Part.bind_eq_bind, Part.bind_some]
      cases frame.functions.get? name <;> rfl
    rw [fix_of_step step, functionIn?_cons]
    cases frame.functions.get? name with
    | some function => rfl
    | none => exact ih (prefix_of_cons h)

/-- Only names that are not there are added. -/
lemma get?_addNew (seen : Bindings Var) (entries : List (String × Var)) (name : String) :
    (seen.addNew entries).get? name = (seen.get? name).or (find? name entries) := by
  induction entries generalizing seen with
  | nil => exact Option.or_none.symm
  | cons entry rest ih =>
    obtain ⟨key, value⟩ := entry
    have step : seen.addNew ((key, value) :: rest) =
        (if seen.contains key then seen else seen.set key value).addNew rest := rfl
    rw [step, ih, find?]
    by_cases same : key = name
    · subst same
      cases own : seen.get? key <;> simp [Bindings.contains, own]
    · cases seen.contains key <;> simp [same]

/-- No name is added twice. -/
lemma distinct_addNew {seen : Bindings Var} (h : Distinct seen.entries)
    (entries : List (String × Var)) : Distinct (seen.addNew entries).entries := by
  induction entries generalizing seen with
  | nil => exact h
  | cons entry rest ih =>
    obtain ⟨key, value⟩ := entry
    have step : seen.addNew ((key, value) :: rest) =
        (if seen.contains key then seen else seen.set key value).addNew rest := rfl
    rw [step]
    split
    · exact ih h
    · exact ih (h.replace key value)

/-- The walk that collects variables shows under each name what the name shows. -/
lemma fix_visibleStep (h : linkedFrames frames <+: a.frames) {seen : Bindings Var}
    (distinct : Distinct seen.entries) :
    ∃ found, a.visibleStep.fix (seen, top? frames) = .some found ∧ Distinct found.entries ∧
      ∀ name, found.get? name = (seen.get? name).or (seenIn? frames name) := by
  induction frames generalizing seen with
  | nil =>
    have step : a.visibleStep (seen, none) = .some (.inl seen) := rfl
    exact ⟨seen, fix_of_step step, distinct, fun name => Option.or_none.symm⟩
  | cons frame rest ih =>
    have distinct := distinct_addNew distinct frame.values.entries
    have own (name : String) : (seen.addNew frame.values.entries).get? name =
        (seen.get? name).or (frame.values.get? name) := get?_addNew seen _ name
    have step : a.visibleStep (seen, top? (frame :: rest)) = .some
        (if frame.boundary then .inl (seen.addNew frame.values.entries)
          else .inr (seen.addNew frame.values.entries, top? rest)) := by
      rw [top?, Arena.visibleStep, frame?_of_prefix h, Part.bind_eq_bind, Part.bind_some]
      rfl
    rw [fix_of_step step]
    cases boundary : frame.boundary with
    | true =>
      refine ⟨_, rfl, distinct, fun name => ?_⟩
      rw [own, seenIn?_cons, boundary, if_pos rfl, Option.or_none]
    | false =>
      obtain ⟨found, walk, distinct, shows⟩ := ih (prefix_of_cons h) distinct
      refine ⟨found, walk, distinct, fun name => ?_⟩
      rw [shows, own, seenIn?_cons, boundary, if_neg Bool.false_ne_true, Option.or_assoc]

/-- A name has no owner if and only if it shows nothing. -/
lemma ownerIn?_eq_none_iff {name : String} :
    ownerIn? name frames = none ↔ seenIn? frames name = none := by
  induction frames with
  | nil => exact ⟨fun _ => rfl, fun _ => rfl⟩
  | cons frame rest ih =>
    cases own : frame.values.get? name <;> cases boundary : frame.boundary <;>
      simp [ownerIn?, seenIn?_cons, Bindings.contains, own, boundary, ih]

/-- The frame that has a variable holds what its name shows. -/
lemma exists_of_ownerIn? {name : String} {place : Nat} (h : ownerIn? name frames = some place) :
    ∃ frame, (linkedFrames frames)[place]? = some frame ∧
      frame.values.get? name = seenIn? frames name := by
  induction frames with
  | nil => cases h
  | cons frame rest ih =>
    unfold ownerIn? at h
    split at h
    case isTrue found =>
      cases h
      refine ⟨_, getElem?_of_prefix (a := ⟨_, 0, []⟩) List.prefix_rfl, ?_⟩
      obtain ⟨value, own⟩ := Option.isSome_iff_exists.1 found
      rw [seenIn?_cons, own]
      rfl
    case isFalse absent =>
      split at h
      case isTrue => cases h
      case isFalse open_ =>
        obtain ⟨outer, at_, shows⟩ := ih h
        have own : frame.values.get? name = none := by simpa [Bindings.contains] using absent
        refine ⟨outer, ?_, ?_⟩
        · rw [linkedFrames, List.getElem?_append_left (List.getElem?_eq_some_iff.1 at_).1, at_]
        · rw [shows, seenIn?_cons, own, if_neg open_]
          rfl

section
variable (env : Environment Var Fun) (name : String)

/-- The owner of a name is found by its walk. -/
lemma owner?_linked : env.linked.owner? name = .some (ownerIn? name env.frames) :=
  fix_ownerStep (a := env.linked) List.prefix_rfl name

/-- A function is found by its walk. -/
lemma function?_linked : env.linked.function? name = .some (env.function? name) :=
  fix_functionStep (a := env.linked) List.prefix_rfl name

/-- A walk tells whether a name is defined. -/
lemma isDefined?_linked : env.linked.isDefined? name = .some (env.isDefined name) := by
  have owned : (ownerIn? name env.frames).isSome = (env.lookup? name).isSome := by
    rw [Bool.eq_iff_iff, Option.isSome_iff_ne_none, Option.isSome_iff_ne_none]
    exact not_congr ownerIn?_eq_none_iff
  unfold Arena.isDefined?
  rw [owner?_linked, Part.bind_eq_bind, Part.bind_some, owned]
  rfl

/-- A variable is found by its walk. -/
lemma lookup?_linked : env.linked.lookup? name = .some (env.lookup? name) := by
  unfold Arena.lookup?
  rw [owner?_linked, Part.bind_eq_bind, Part.bind_some]
  cases h : ownerIn? name env.frames with
  | none => exact congrArg Part.some (ownerIn?_eq_none_iff.1 h).symm
  | some place =>
    obtain ⟨frame, found, shows⟩ := exists_of_ownerIn? h
    have walk : env.linked.frame? place = .some frame := by
      rw [Arena.frame?, linked, found, Part.coe_some]
    dsimp only
    rw [walk, Part.bind_eq_bind, Part.bind_some, shows]
    rfl

/-- The walk for all variables finds each visible one once. -/
lemma visible?_linked : ∃ found, env.linked.visible? = .some found ∧ Distinct found.entries ∧
    ∀ name, found.get? name = env.lookup? name := by
  have none_seen : Distinct (Bindings.empty : Bindings Var).entries := List.nodup_nil
  exact fix_visibleStep (a := env.linked) List.prefix_rfl none_seen

end

/-- A change at a place of the first part changes that part. -/
lemma modify_append_of_lt {α : Type} {l : List α} {i : Nat} (h : i < l.length) (r : List α)
    (f : α → α) : (l ++ r).modify i f = l.modify i f ++ r := by
  induction l generalizing i with
  | nil => exact absurd h (Nat.not_lt_zero i)
  | cons x l ih =>
    cases i with
    | zero => rfl
    | succ i => simpa using ih (Nat.lt_of_succ_lt_succ h)

/-- A change behind the first part changes the last element. -/
lemma modify_concat {α : Type} (l : List α) (x : α) (f : α → α) :
    (l ++ [x]).modify l.length f = l ++ [f x] := by
  induction l with
  | nil => rfl
  | cons y l ih => simpa using ih

/-- A change to the nearest frame. -/
lemma linkedFrames_modify (frame : Frame Var Fun) (rest : List (Frame Var Fun))
    (change : Frame Var Fun → Frame Var Fun) :
    (linkedFrames (frame :: rest)).modify rest.length (.modify change) =
      linkedFrames (change frame :: rest) := by
  have place : rest.length = (linkedFrames rest).length := (length_linkedFrames rest).symm
  rw [linkedFrames, linkedFrames, place, modify_concat]
  rfl

/-- A change at the current place changes the first frame. -/
lemma modify_linked (env : Environment Var Fun) (change : Frame Var Fun → Frame Var Fun) :
    env.linked.modify env.linked.current change = linked ⟨change env.frame, env.enclosing⟩ :=
  congrArg (Arena.mk · _ _) (linkedFrames_modify env.frame env.enclosing change)

/-- The owner of a name is one of the frames. -/
lemma ownerIn?_lt {name : String} {place : Nat} (h : ownerIn? name frames = some place) :
    place < (linkedFrames frames).length := by
  obtain ⟨frame, found, -⟩ := exists_of_ownerIn? h
  exact (List.getElem?_eq_some_iff.1 found).1

/-- To give a visible variable a new value is to change the frame that has it. -/
lemma linkedFrames_assignFrom? (name : String) (value : Var) (frame : Frame Var Fun)
    (rest : List (Frame Var Fun)) :
    (assignFrom? name value frame rest).map (fun env => linkedFrames env.frames) =
      (ownerIn? name (frame :: rest)).map fun place =>
        (linkedFrames (frame :: rest)).modify place (.modify (setIn · name value)) := by
  induction rest generalizing frame with
  | nil =>
    have here := linkedFrames_modify frame [] (setIn · name value)
    rw [assignFrom?, ownerIn?]
    cases frame.values.contains name with
    | true => exact congrArg some here.symm
    | false => cases frame.boundary <;> rfl
  | cons outer rest ih =>
    have here := linkedFrames_modify frame (outer :: rest) (setIn · name value)
    rw [assignFrom?, ownerIn?]
    cases frame.values.contains name with
    | true => exact congrArg some here.symm
    | false =>
      cases frame.boundary with
      | true => rfl
      | false =>
        have ih := ih outer
        rw [if_neg Bool.false_ne_true, if_neg Bool.false_ne_true, if_neg Bool.false_ne_true,
          if_neg Bool.false_ne_true]
        cases owner : ownerIn? name (outer :: rest) with
        | none =>
          rw [owner, Option.map_none, Option.map_eq_none_iff] at ih
          rw [ih]
          rfl
        | some place =>
          -- The frame of this step stands behind all that the assignment may have changed.
          rw [owner, Option.map_some, Option.map_eq_some_iff] at ih
          obtain ⟨env, found, changed⟩ := ih
          have depth : env.enclosing.length = rest.length :=
            Nat.succ.inj (framesKept_of_assignFrom? found).length_eq
          rw [found, Option.map_some, Option.map_some, Option.map_some, linkedFrames,
            modify_append_of_lt (ownerIn?_lt owner), ← changed]
          show some (linkedFrames env.frames ++ [⟨frame, some env.enclosing.length⟩]) = _
          rw [depth]
          rfl

/-- An assignment to the list is one to the environment. -/
lemma assign?_linked (env : Environment Var Fun) (name : String) (value : Var) :
    env.linked.assign? name value = .some ((env.assign? name value).map linked) := by
  have changed := linkedFrames_assignFrom? name value env.frame env.enclosing
  unfold Arena.assign?
  rw [owner?_linked, Part.bind_eq_bind, Part.bind_some]
  refine congrArg Part.some ?_
  show (ownerIn? name (env.frame :: env.enclosing)).map _ = (assignFrom? name value _ _).map _
  cases owner : ownerIn? name (env.frame :: env.enclosing) with
  | none =>
    rw [owner, Option.map_none, Option.map_eq_none_iff] at changed
    rw [changed]
    rfl
  | some place =>
    rw [owner, Option.map_some, Option.map_eq_some_iff] at changed
    obtain ⟨env', found, changed⟩ := changed
    have depth : env'.depth = env.depth := (keeps_of_assign? found).depth
    rw [found, Option.map_some, Option.map_some]
    unfold linked Arena.modify
    rw [changed, depth]
    rfl

/-- A declaration in the list is one in the environment. -/
lemma declare?_linked (env : Environment Var Fun) (name : String) (value : Var) :
    env.linked.declare? name value = .some (env.declare name value).linked := by
  have assigned := assign?_linked env name value
  unfold Arena.assign? at assigned
  unfold Arena.declare? declare
  rw [owner?_linked, Part.bind_eq_bind, Part.bind_some] at assigned ⊢
  have assigned := Part.some_inj.1 assigned
  refine congrArg Part.some ?_
  cases owner : ownerIn? name env.frames with
  | none =>
    rw [owner, Option.map_none, eq_comm, Option.map_eq_none_iff] at assigned
    rw [assigned]
    exact modify_linked env (setIn · name value)
  | some place =>
    rw [owner, Option.map_some, eq_comm, Option.map_eq_some_iff] at assigned
    obtain ⟨env', found, changed⟩ := assigned
    rw [found]
    exact changed.symm

/-- A request: the list answers as the environment does, and goes on to stand for it. -/
theorem respond?_linked (request : Request Var Fun) (env : Environment Var Fun) :
    env.linked.respond? request =
      .some ((env.respond request).1, (env.respond request).2.linked) := by
  cases request with
  | enter boundary =>
    exact congrArg (fun a => Part.some (Answer.done, a)) (linked_push env boundary).symm
  | leave => exact congrArg (fun a => Part.some (Answer.done, a)) (linked_pop env).symm
  | declare name value =>
    unfold Arena.respond?
    dsimp only
    rw [declare?_linked, Part.bind_eq_bind, Part.bind_some]
    rfl
  | assign name value =>
    unfold Arena.respond? respond
    dsimp only
    rw [assign?_linked, Part.bind_eq_bind, Part.bind_some]
    cases env.assign? name value <;> rfl
  | bind name value =>
    exact congrArg (fun a => Part.some (Answer.done, a)) (modify_linked env (setIn · name value))
  | define name function =>
    exact congrArg (fun a => Part.some (Answer.done, a)) (modify_linked env _)
  | lookup name =>
    unfold Arena.respond? respond
    dsimp only
    rw [lookup?_linked, Part.bind_eq_bind, Part.bind_some]
    cases env.lookup? name <;> rfl
  | isDefined name =>
    unfold Arena.respond?
    dsimp only
    rw [isDefined?_linked, Part.bind_eq_bind, Part.bind_some]
    rfl
  | visible =>
    obtain ⟨found, walk, distinct, shows⟩ := visible?_linked env
    unfold Arena.respond?
    dsimp only
    rw [walk, Part.bind_eq_bind, Part.bind_some]
    exact congrArg (fun entries => Part.some (Answer.listed entries, env.linked))
      (visible_eq distinct shows).symm
  | function name =>
    unfold Arena.respond?
    dsimp only
    rw [function?_linked, Part.bind_eq_bind, Part.bind_some]
    rfl

/-- Requests to the list are answered as those to the environment, and change it alike. -/
lemma serve?_linked (requests : List (Request Var Fun)) (env : Environment Var Fun) :
    env.linked.serve? requests = .some (env.answers requests, (env.after requests).linked) := by
  induction requests generalizing env with
  | nil => rfl
  | cons request rest ih =>
    unfold Arena.serve?
    rw [respond?_linked, Part.bind_eq_bind, Part.bind_some]
    dsimp only
    rw [ih, Part.bind_eq_bind, Part.bind_some]
    rfl

/-- The outermost of some frames is a boundary. -/
def IsRooted : List (Frame Var Fun) → Prop
  | [] => False
  | [frame] => frame.boundary = true
  | _ :: outer :: rest => IsRooted (outer :: rest)

/-- Frames that are kept stay rooted. -/
lemma isRooted_of_kept {frames frames' : List (Frame Var Fun)} (h : FramesKept frames frames')
    (rooted : IsRooted frames) : IsRooted frames' := by
  induction h with
  | nil => exact rooted
  | @boundary frame frame' rest hb hr =>
    cases rest with
    | nil => exact hr.boundary.trans hb
    | cons => exact rooted
  | @cons frame frame' rest rest' hb hr inner ih =>
    cases inner with
    | nil => exact hr.boundary.trans rooted
    | boundary => exact ih rooted
    | cons => exact ih rooted

/-- Environments that are extended stay rooted. -/
lemma isRooted_of_extends {env env' : Environment Var Fun} (h : env.Extends env')
    (rooted : IsRooted env.frames) : IsRooted env'.frames := by
  have kept : FramesKept env.enclosing env'.enclosing := by
    have enclosing := h.enclosing
    split at enclosing
    · exact enclosing ▸ .refl _
    · exact enclosing
  obtain ⟨frame, rest⟩ := env
  obtain ⟨frame', rest'⟩ := env'
  have boundary : frame'.boundary = frame.boundary := h.frame.boundary
  cases rest with
  | nil =>
    cases kept
    exact boundary.trans rooted
  | cons outer rest =>
    have inner := isRooted_of_kept kept rooted
    cases kept <;> exact inner

/-- No request takes the outermost boundary away. -/
lemma isRooted_respond {env : Environment Var Fun} (rooted : IsRooted env.frames)
    (request : Request Var Fun) : IsRooted (env.respond request).2.frames := by
  cases request with
  | enter boundary => exact rooted
  | leave =>
    obtain ⟨frame, enclosing⟩ := env
    cases enclosing <;> exact rooted
  | declare name value => exact isRooted_of_extends (extends_declare env name value) rooted
  | assign name value =>
    unfold respond
    dsimp only
    cases e : env.assign? name value with
    | none => exact rooted
    | some env' => exact isRooted_of_extends (keeps_of_assign? e).extends rooted
  | bind name value => exact isRooted_of_extends (extends_bind env name value) rooted
  | define name function => exact isRooted_of_extends (extends_define env name function) rooted
  | lookup name =>
    unfold respond
    dsimp only
    cases env.lookup? name <;> exact rooted
  | isDefined name => exact rooted
  | visible => exact rooted
  | function name => exact rooted

/-- Requests keep the frames rooted. -/
lemma isRooted_after {env : Environment Var Fun} (rooted : IsRooted env.frames)
    (requests : List (Request Var Fun)) : IsRooted (env.after requests).frames := by
  induction requests generalizing env with
  | nil => exact rooted
  | cons request rest ih => exact ih (isRooted_respond rooted request)

/-- A frame is linked to the one at the place before it. -/
lemma parent_of_getElem? {place : Nat} {linked : LinkedFrame Var Fun}
    (h : (linkedFrames frames)[place + 1]? = some linked) : linked.parent = some place := by
  induction frames with
  | nil => cases h
  | cons frame rest ih =>
    rw [linkedFrames] at h
    by_cases inner : place + 1 < (linkedFrames rest).length
    · rw [List.getElem?_append_left inner] at h
      exact ih h
    · rw [List.getElem?_append_right (Nat.le_of_not_lt inner)] at h
      obtain ⟨last, e⟩ := List.getElem?_eq_some_iff.1 h
      rw [List.length_singleton] at last
      rw [length_linkedFrames] at inner last
      have length : rest.length = place + 1 := by omega
      simp only [List.getElem_singleton] at e
      cases e
      cases rest with
      | nil => cases length
      | cons outer rest => exact congrArg some (Nat.succ.inj length)

/-- At the first place there is a boundary that is linked to none. -/
lemma exists_root (rooted : IsRooted frames) : ∃ linked, (linkedFrames frames)[0]? = some linked ∧
    linked.parent = none ∧ linked.boundary = true := by
  induction frames with
  | nil => exact rooted.elim
  | cons frame rest ih =>
    cases rest with
    | nil => exact ⟨⟨frame, none⟩, rfl, rfl, rooted⟩
    | cons outer rest =>
      obtain ⟨linked, found, parent, boundary⟩ := ih rooted
      refine ⟨linked, ?_, parent, boundary⟩
      rw [linkedFrames, List.getElem?_append_left (List.getElem?_eq_some_iff.1 found).1, found]

end Environment

namespace Arena

/-- Each frame links to the one before it, up to the first, which is a boundary, and the last is the
current one. -/
structure Chained (a : Arena Var Fun) : Prop where
  current_last : a.current + 1 = a.frames.length
  parents (place : Nat) (frame : LinkedFrame Var Fun) :
    a.frames[place + 1]? = some frame → frame.parent = some place
  root : ∃ frame, a.frames[0]? = some frame ∧ frame.parent = none ∧ frame.boundary = true

/-- All walks from the current frame end and agree on what is visible. What is declared or assigned
is seen under its name, and nothing else changes. -/
structure Coherent (a : Arena Var Fun) : Prop where
  owner (name : String) : ∃ place?, a.owner? name = .some place?
  function (name : String) : ∃ function?, a.function? name = .some function?
  visible : ∃ found, a.visible? = .some found ∧ ∀ name value, found.get? name = some value ↔
    a.isDefined? name = .some true ∧ a.lookup? name = .some (some value)
  declare (name : String) (value : Var) : ∃ a', a.declare? name value = .some a' ∧
    ∀ other, a'.lookup? other = if name = other then .some (some value) else a.lookup? other
  assign (name : String) (value : Var) :
    a.isDefined? name = .some false ∧ a.assign? name value = .some none ∨
    a.isDefined? name = .some true ∧ ∃ a', a.assign? name value = .some (some a') ∧
      ∀ other, a'.lookup? other = if name = other then .some (some value) else a.lookup? other

end Arena

namespace Environment

/-- The list of a rooted environment is a chain. -/
lemma chained_linked {env : Environment Var Fun} (rooted : IsRooted env.frames) :
    env.linked.Chained where
  current_last := (length_linkedFrames env.frames).symm
  parents _ _ := parent_of_getElem?
  root := exists_root rooted

/-- The walks over the list of an environment agree. -/
lemma coherent_linked (env : Environment Var Fun) : env.linked.Coherent where
  owner name := ⟨_, owner?_linked env name⟩
  function name := ⟨_, function?_linked env name⟩
  visible := by
    obtain ⟨found, walk, -, shows⟩ := visible?_linked env
    refine ⟨found, walk, fun name value => ?_⟩
    rw [shows, isDefined?_linked, lookup?_linked, isDefined]
    cases env.lookup? name <;> simp
  declare name value := by
    refine ⟨_, declare?_linked env name value, fun other => ?_⟩
    rw [lookup?_linked, lookup?_linked, lookup?_declare]
    split <;> rfl
  assign name value := by
    rw [isDefined?_linked, assign?_linked]
    cases found : env.assign? name value with
    | none =>
      rw [isDefined, assign?_eq_none_iff.1 found]
      exact .inl ⟨rfl, rfl⟩
    | some env' =>
      have visible : env.isDefined name = true := by
        rw [isDefined, Option.isSome_iff_ne_none]
        intro absent
        rw [assign?_eq_none_iff.2 absent] at found
        cases found
      refine .inr ⟨congrArg Part.some visible, _, rfl, fun other => ?_⟩
      rw [lookup?_linked, lookup?_linked, lookup?_assign? found]
      split <;> rfl

/-- Whatever is asked of linked frames from the start, every request is answered, as the environment
answers it. The frames stay a chain from the current one, the last, to the root, and the walks over
them agree. -/
theorem linked_frames_stay_chained (requests : List (Request Var Fun)) :
    Arena.root.serve? requests =
        .some ((root : Environment Var Fun).answers requests,
          ((root : Environment Var Fun).after requests).linked) ∧
      ((root : Environment Var Fun).after requests).linked.Chained ∧
      ((root : Environment Var Fun).after requests).linked.Coherent := by
  have rooted : IsRooted (root : Environment Var Fun).frames := rfl
  exact ⟨serve?_linked requests root, chained_linked (isRooted_after rooted requests),
    coherent_linked _⟩

end Environment

end ScriptLang
