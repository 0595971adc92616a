import ScriptLang.Error
import ScriptLang.Proofs.Environment.Variables

/-!
# Scopes that copy

Another account of scopes, in which no scope looks into another: each holds all the variables and
functions that can be seen in it. A loop starts with a copy of what is around it, a call with a copy
of the functions alone. When a loop ends, the variables that were there before it get the values
they have now; when a call ends, nothing is copied.

Nobody who works with an environment can tell it from these scopes: whatever requests are made of
both, the answers are the same (`Environment.answers_eq_copying`). The one condition is that names
are bound only in scopes of calls, as the arguments of a function are. `Mirrors` relates the two
while requests are served. Inside a loop the scopes around it are out of date, since assignments
reach their frames at once and their copies only when the loop ends. So of those scopes `Mirrors`
asks for no more than the right names; that the values are right in the end is due to every name
living in one frame only up to the next boundary (`Mirror.owned`).
-/

namespace ScriptLang

variable {Var Fun : Type}

/-- What can be asked of an environment. -/
inductive Request (Var Fun : Type) where
  | enter (boundary : Bool)
  | leave
  | declare (name : String) (value : Var)
  | assign (name : String) (value : Var)
  | bind (name : String) (value : Var)
  | define (name : String) (function : Fun)
  | lookup (name : String)
  | isDefined (name : String)
  | visible
  | function (name : String)

/-- What is answered to a request. Variables are listed in the order of their names. -/
inductive Answer (Var Fun : Type) where
  | done
  | refused (cause : Cause)
  | value (value : Var)
  | truth (holds : Bool)
  | listed (entries : List (String × Var))
  | function (function? : Option Fun)

/-- The answers to requests that are made one after the other. -/
def answersOf {State : Type} (respond : Request Var Fun → State → Answer Var Fun × State) :
    State → List (Request Var Fun) → List (Answer Var Fun)
  | _, [] => []
  | state, request :: rest =>
    (respond request state).1 :: answersOf respond (respond request state).2 rest

namespace Environment

/-- Serves a request. -/
def respond (request : Request Var Fun) (env : Environment Var Fun) :
    Answer Var Fun × Environment Var Fun :=
  match request with
  | .enter boundary => (.done, env.push boundary)
  | .leave => (.done, env.pop)
  | .declare name value => (.done, env.declare name value)
  | .assign name value =>
    match env.assign? name value with
    | some env' => (.done, env')
    | none => (.refused (.undeclaredName name), env)
  | .bind name value => (.done, env.bind name value)
  | .define name function => (.done, env.define name function)
  | .lookup name =>
    match env.lookup? name with
    | some value => (.value value, env)
    | none => (.refused (.undefinedName name), env)
  | .isDefined name => (.truth (env.isDefined name), env)
  | .visible => (.listed env.visible, env)
  | .function name => (.function (env.function? name), env)

/-- The answers to requests. -/
def answers (env : Environment Var Fun) (requests : List (Request Var Fun)) :
    List (Answer Var Fun) :=
  answersOf respond env requests

/-- Names are bound only where the current frame is a boundary. -/
def BindsInCalls (env : Environment Var Fun) : List (Request Var Fun) → Prop
  | [] => True
  | request :: rest =>
    (∀ name value, request = .bind name value → env.frame.boundary = true) ∧
      (respond request env).2.BindsInCalls rest

end Environment

/-- The variables of `outer` with the values that they have in `inner`. -/
def Bindings.refreshed {α : Type} (outer inner : Bindings α) : Bindings α :=
  ⟨outer.entries.map fun (name, value) => (name, (inner.get? name).getD value)⟩

/-- Scopes that hold all that can be seen in them, the current one and those around it. -/
structure Copies (Var Fun : Type) where
  scope : Frame Var Fun
  enclosing : List (Frame Var Fun)

namespace Copies

/-- The scope of the top level. -/
def root : Copies Var Fun := ⟨.empty true, []⟩

/-- Opens a scope. A loop sees the variables around it, a call does not. -/
def push (copies : Copies Var Fun) (boundary : Bool) : Copies Var Fun where
  scope :=
    { boundary
      values := if boundary then .empty else copies.scope.values
      functions := copies.scope.functions }
  enclosing := copies.scope :: copies.enclosing

/-- Closes a scope. The values of a loop are copied to the variables that were there before it. -/
def pop (copies : Copies Var Fun) : Copies Var Fun :=
  match copies.enclosing with
  | [] => copies
  | outer :: rest =>
    if copies.scope.boundary then ⟨outer, rest⟩
    else ⟨{ outer with values := outer.values.refreshed copies.scope.values }, rest⟩

/-- Gives a variable of the current scope a value. -/
def set (copies : Copies Var Fun) (name : String) (value : Var) : Copies Var Fun :=
  { copies with scope := Environment.setIn copies.scope name value }

/-- Gives a name a function in the current scope. -/
def define (copies : Copies Var Fun) (name : String) (function : Fun) : Copies Var Fun :=
  { copies with
    scope := { copies.scope with functions := copies.scope.functions.set name function } }

/-- Serves a request. -/
def respond (request : Request Var Fun) (copies : Copies Var Fun) :
    Answer Var Fun × Copies Var Fun :=
  match request with
  | .enter boundary => (.done, copies.push boundary)
  | .leave => (.done, copies.pop)
  | .declare name value | .bind name value => (.done, copies.set name value)
  | .assign name value =>
    if copies.scope.values.contains name then (.done, copies.set name value)
    else (.refused (.undeclaredName name), copies)
  | .define name function => (.done, copies.define name function)
  | .lookup name =>
    match copies.scope.values.get? name with
    | some value => (.value value, copies)
    | none => (.refused (.undefinedName name), copies)
  | .isDefined name => (.truth (copies.scope.values.contains name), copies)
  | .visible => (.listed (Bindings.sortByName copies.scope.values.entries), copies)
  | .function name => (.function (copies.scope.functions.get? name), copies)

/-- The answers to requests. -/
def answers (copies : Copies Var Fun) (requests : List (Request Var Fun)) :
    List (Answer Var Fun) :=
  answersOf respond copies requests

end Copies

namespace Bindings
variable {α : Type}

/-- A refreshed name has its value from the inner bindings, if they have one. -/
lemma get?_refreshed (outer inner : Bindings α) (name : String) :
    (outer.refreshed inner).get? name =
      (outer.get? name).map fun value => (inner.get? name).getD value := by
  obtain ⟨entries⟩ := outer
  unfold refreshed get?
  induction entries with
  | nil => rfl
  | cons entry rest ih =>
    obtain ⟨key, value⟩ := entry
    by_cases same : key = name
    · subst same
      simp [find?]
    · simpa [find?, same] using ih

/-- A refresh brings in no new names. -/
lemma names_refreshed (outer inner : Bindings α) : (outer.refreshed inner).names = outer.names := by
  simp [refreshed, names, Function.comp_def]

end Bindings

namespace Environment

/-- The function that a name stands for in frames, of which the nearest is the first. -/
def functionIn? (frames : List (Frame Var Fun)) (name : String) : Option Fun :=
  frames.findSome? (·.functions.get? name)

/-- A function is looked for in the first frame and then in the others. -/
@[simp] lemma functionIn?_cons (frame : Frame Var Fun) (rest : List (Frame Var Fun))
    (name : String) :
    functionIn? (frame :: rest) name =
      (frame.functions.get? name).or (functionIn? rest name) := by
  unfold functionIn?
  rw [List.findSome?_cons]
  cases frame.functions.get? name <;> rfl

/-- A frame, with the frames around it, and the scope that copies what is seen there. Out of date,
the scope has the right names and possibly the wrong values. -/
structure Mirror (current : Bool) (frame : Frame Var Fun) (rest : List (Frame Var Fun))
    (scope : Frame Var Fun) : Prop where
  boundary : scope.boundary = frame.boundary
  distinct : Bindings.Distinct scope.values.entries
  names (name : String) :
    (scope.values.get? name).isSome = (seenIn? (frame :: rest) name).isSome
  values : current = true → ∀ name, scope.values.get? name = seenIn? (frame :: rest) name
  functions (name : String) : scope.functions.get? name = functionIn? (frame :: rest) name
  owned : frame.boundary = false → ∀ name, (seenIn? rest name).isSome = true →
    frame.values.get? name = none

/-- Frames and the scopes that copy them. Around a call scopes are up to date, around a loop they
need not be. -/
inductive Mirrors : Bool → List (Frame Var Fun) → List (Frame Var Fun) → Prop where
  | nil {current} : Mirrors current [] []
  | cons {current frame rest scope scopes} :
    Mirror current frame rest scope → Mirrors frame.boundary rest scopes →
    Mirrors current (frame :: rest) (scope :: scopes)

/-- A scope with the right values has the right names. -/
lemma Mirror.of_values {current : Bool} {frame scope : Frame Var Fun} {rest : List (Frame Var Fun)}
    (boundary : scope.boundary = frame.boundary)
    (distinct : Bindings.Distinct scope.values.entries)
    (values : ∀ name, scope.values.get? name = seenIn? (frame :: rest) name)
    (functions : ∀ name, scope.functions.get? name = functionIn? (frame :: rest) name)
    (owned : frame.boundary = false → ∀ name, (seenIn? rest name).isSome = true →
      frame.values.get? name = none) : Mirror current frame rest scope where
  boundary := boundary
  distinct := distinct
  names name := by rw [values]
  values _ := values
  functions := functions
  owned := owned

/-- Copies that are current may also count as outdated. -/
lemma Mirrors.outdated {current : Bool} {frames scopes : List (Frame Var Fun)}
    (h : Mirrors current frames scopes) : Mirrors false frames scopes := by
  cases h with
  | nil => exact .nil
  | cons m rest => exact .cons { m with values := nofun } rest

/-- Renewed frames have values for the same names. -/
lemma contains_of_renewed {frame frame' : Frame Var Fun} (h : frame.Renewed frame')
    (name : String) : (frame'.values.get? name).isSome = (frame.values.get? name).isSome :=
  Bindings.contains_eq_of_names h.names name

/-- Frames that are kept show the same names. -/
lemma isSome_seenIn?_of_kept {frames frames' : List (Frame Var Fun)}
    (h : FramesKept frames frames') (name : String) :
    (seenIn? frames' name).isSome = (seenIn? frames name).isSome := by
  induction h with
  | nil => rfl
  | boundary hb hr =>
    rw [seenIn?_cons, seenIn?_cons, hr.boundary, Option.isSome_or, Option.isSome_or,
      contains_of_renewed hr, hb]
  | cons hb hr _ ih =>
    rw [seenIn?_cons, seenIn?_cons, hr.boundary, Option.isSome_or, Option.isSome_or,
      contains_of_renewed hr, hb]
    exact congrArg _ ih

/-- Frames that are kept have the same functions. -/
lemma functionIn?_of_kept {frames frames' : List (Frame Var Fun)}
    (h : FramesKept frames frames') (name : String) :
    functionIn? frames' name = functionIn? frames name := by
  induction h with
  | nil => rfl
  | boundary _ hr => rw [functionIn?_cons, functionIn?_cons, hr.functions]
  | cons _ hr _ ih => rw [functionIn?_cons, functionIn?_cons, hr.functions, ih]

/-- Scopes that are out of date anyway do not mind new values. -/
lemma Mirrors.of_kept {frames frames' scopes : List (Frame Var Fun)}
    (h : Mirrors false frames scopes) (kept : FramesKept frames frames') :
    Mirrors false frames' scopes := by
  induction kept generalizing scopes with
  | nil => exact h
  | @boundary frame frame' rest hb hr =>
    cases h with
    | cons m tail =>
      have kept : FramesKept (frame :: rest) (frame' :: rest) := .boundary hb hr
      refine .cons ?_ (hr.boundary ▸ tail)
      exact
        { boundary := m.boundary.trans hr.boundary.symm
          distinct := m.distinct
          names := fun name => (m.names name).trans (isSome_seenIn?_of_kept kept name).symm
          -- Scopes that are out of date promise nothing about values.
          values := nofun
          functions := fun name => (m.functions name).trans (functionIn?_of_kept kept name).symm
          owned := fun open_ => by simp [hr.boundary, hb] at open_ }
  | @cons frame frame' rest rest' hb hr inner ih =>
    cases h with
    | cons m tail =>
      have kept : FramesKept (frame :: rest) (frame' :: rest') := .cons hb hr inner
      rw [hb] at tail
      refine .cons ?_ ((hr.boundary.trans hb) ▸ ih tail)
      exact
        { boundary := m.boundary.trans hr.boundary.symm
          distinct := m.distinct
          names := fun name => (m.names name).trans (isSome_seenIn?_of_kept kept name).symm
          values := nofun
          functions := fun name => (m.functions name).trans (functionIn?_of_kept kept name).symm
          owned := fun _ name seen => by
            rw [isSome_seenIn?_of_kept inner] at seen
            have own := contains_of_renewed hr name
            rw [m.owned hb name seen] at own
            simpa using own }

/-- When a loop ends, the scope around it is up to date again. -/
lemma Mirror.get?_refreshed {current : Bool} {frame frame' scope scope' : Frame Var Fun}
    {rest : List (Frame Var Fun)} (m : Mirror current frame' rest scope')
    (inner : Mirror true frame (frame' :: rest) scope) (open_ : frame.boundary = false)
    (name : String) :
    (scope'.values.refreshed scope.values).get? name = seenIn? (frame' :: rest) name := by
  have names := m.names name
  rw [Bindings.get?_refreshed]
  cases seen : seenIn? (frame' :: rest) name with
  | none =>
    rw [seen] at names
    have absent : scope'.values.get? name = none := by simpa using names
    rw [absent]
    rfl
  | some value =>
    rw [seen] at names
    obtain ⟨old, copy⟩ := Option.isSome_iff_exists.1 names
    -- The frame of the loop has no such name, so the loop saw what is seen around it.
    have hidden : frame.values.get? name = none := inner.owned open_ name (by rw [seen]; rfl)
    have copied : scope.values.get? name = some value := by
      rw [inner.values rfl name, seenIn?_cons, hidden, open_, seen]
      rfl
    rw [copy, copied]
    rfl

variable {env : Environment Var Fun} {copies : Copies Var Fun}

/-- An environment and the scopes that copy it. -/
def MirroredBy (env : Environment Var Fun) (copies : Copies Var Fun) : Prop :=
  Mirrors true env.frames (copies.scope :: copies.enclosing)

/-- The first environment is mirrored by the first copies. -/
lemma mirrored_root : (root : Environment Var Fun).MirroredBy .root := by
  refine .cons ?_ .nil
  exact .of_values rfl List.nodup_nil (fun _ => rfl) (fun _ => rfl) (fun _ _ _ => rfl)

namespace MirroredBy

/-- An environment is mirrored if its first frame is and the frames behind it are. -/
lemma intro (m : Mirror true env.frame env.enclosing copies.scope)
    (rest : Mirrors env.frame.boundary env.enclosing copies.enclosing) : env.MirroredBy copies :=
  .cons m rest

/-- The first frame of an environment is mirrored. -/
lemma mirror (h : env.MirroredBy copies) : Mirror true env.frame env.enclosing copies.scope := by
  cases h with
  | cons m => exact m

/-- The frames behind the first are mirrored. -/
lemma enclosing (h : env.MirroredBy copies) :
    Mirrors env.frame.boundary env.enclosing copies.enclosing := by
  cases h with
  | cons _ rest => exact rest

/-- A name has the same value in the copies as in the environment. -/
lemma get?_eq (h : env.MirroredBy copies) (name : String) :
    copies.scope.values.get? name = env.lookup? name :=
  h.mirror.values rfl name

/-- The copies have the names that are defined in the environment. -/
lemma contains_eq (h : env.MirroredBy copies) (name : String) :
    copies.scope.values.contains name = env.isDefined name := by
  rw [Bindings.contains, h.get?_eq, isDefined]

/-- New scopes keep the mirror. -/
lemma push (h : env.MirroredBy copies) (boundary : Bool) :
    (env.push boundary).MirroredBy (copies.push boundary) := by
  cases boundary with
  | true =>
    refine intro ?_ h
    exact .of_values rfl List.nodup_nil (fun _ => rfl) h.mirror.functions (fun _ _ _ => rfl)
  | false =>
    refine intro ?_ h.outdated
    refine .of_values rfl h.mirror.distinct (fun name => ?_) h.mirror.functions
      (fun _ _ _ => rfl)
    exact (h.get?_eq name).trans (seenIn?_cons (.empty false) env.frames name).symm

/-- Scopes that end keep the mirror. -/
lemma pop (h : env.MirroredBy copies) : env.pop.MirroredBy copies.pop := by
  obtain ⟨frame, outer⟩ := env
  obtain ⟨scope, scopes⟩ := copies
  have inner : Mirror true frame outer scope := h.mirror
  have around : Mirrors frame.boundary outer scopes := h.enclosing
  cases around with
  | nil => exact h
  | @cons _ frame' rest scope' scopes m tail =>
    cases boundary : frame.boundary with
    | true =>
      rw [boundary] at m
      have same : scope.boundary = true := inner.boundary.trans boundary
      simp only [Environment.pop, Copies.pop, same, if_true]
      exact .cons m tail
    | false =>
      have same : scope.boundary = false := inner.boundary.trans boundary
      simp only [Environment.pop, Copies.pop, same, Bool.false_eq_true, if_false]
      refine intro ?_ tail
      refine .of_values m.boundary ?_ (fun name => ?_) m.functions m.owned
      · have names : (scope'.values.refreshed scope.values).names.Nodup := by
          rw [Bindings.names_refreshed]
          exact m.distinct
        exact names
      · exact m.get?_refreshed inner boundary name

/-- A definition keeps the mirror. -/
lemma define (h : env.MirroredBy copies) (name : String) (function : Fun) :
    (env.define name function).MirroredBy (copies.define name function) := by
  have m := h.mirror
  refine intro ?_ h.enclosing
  refine .of_values m.boundary m.distinct (fun other => ?_) (fun other => ?_) m.owned
  · exact (h.get?_eq other).trans (lookup?_define env name other function).symm
  · have old : copies.scope.functions.get? other = (env.frame.functions.get? other).or _ :=
      (m.functions other).trans (functionIn?_cons ..)
    rw [functionIn?_cons]
    simp only [Copies.define, Environment.define, Bindings.get?_set, old]
    by_cases same : name = other <;> simp [same]

/-- A variable gets a value, in whichever frame it lives. -/
lemma set {env' : Environment Var Fun} {name : String} {value : Var}
    (h : Mirrors false env'.frames (copies.scope :: copies.enclosing))
    (values : ∀ other, copies.scope.values.get? other = env.lookup? other)
    (lookup : ∀ other, env'.lookup? other =
      if name = other then some value else env.lookup? other) :
    env'.MirroredBy (copies.set name value) := by
  cases h with
  | cons m rest =>
    refine intro ?_ rest
    refine .of_values m.boundary (m.distinct.replace _ _) (fun other => ?_) m.functions m.owned
    have seen : seenIn? (env'.frame :: env'.enclosing) other = _ := lookup other
    rw [seen, ← values]
    exact Bindings.get?_set _ _ _ _

/-- An assignment to a variable keeps the mirror. -/
lemma assign (h : env.MirroredBy copies) {env' : Environment Var Fun} {name : String} {value : Var}
    (e : env.assign? name value = some env') : env'.MirroredBy (copies.set name value) :=
  set (h.outdated.of_kept (keeps_of_assign? e).frames) h.get?_eq (lookup?_assign? e)

/-- A name may be bound where it hides no variable. -/
lemma bind (h : env.MirroredBy copies) {name : String} (value : Var)
    (hidden : env.frame.boundary = true ∨ env.lookup? name = none) :
    (env.bind name value).MirroredBy (copies.set name value) := by
  have m := h.mirror
  refine intro ?_ h.enclosing
  refine .of_values m.boundary (m.distinct.replace _ _) (fun other => ?_) m.functions
    (fun open_ other seen => ?_)
  · have seen : seenIn? (env.bind name value).frames other = _ :=
      lookup?_bind env name other value
    rw [← h.get?_eq] at seen
    exact (Bindings.get?_set _ _ _ _).trans seen.symm
  · have open_ : env.frame.boundary = false := open_
    have seen : (seenIn? env.enclosing other).isSome = true := seen
    have absent : env.lookup? name = none := by
      simpa only [open_, Bool.false_eq_true, false_or] using hidden
    have visible : env.lookup? other = _ := seenIn?_cons env.frame env.enclosing other
    have own := m.owned open_ other seen
    -- The name is not seen further out, so it is another one.
    have other_ne : name ≠ other := by
      rintro rfl
      rw [own, open_, absent] at visible
      have unseen : seenIn? env.enclosing name = none := visible.symm
      rw [unseen] at seen
      cases seen
    exact (Bindings.get?_set ..).trans ((if_neg other_ne).trans own)

/-- A declaration keeps the mirror. -/
lemma declare (h : env.MirroredBy copies) (name : String) (value : Var) :
    (env.declare name value).MirroredBy (copies.set name value) := by
  unfold Environment.declare
  cases e : env.assign? name value with
  | some env' => exact h.assign e
  | none => exact h.bind value (.inr (assign?_eq_none_iff.1 e))

/-- The variables that are listed are the same. -/
lemma visible_eq (h : env.MirroredBy copies) :
    env.visible = Bindings.sortByName copies.scope.values.entries :=
  Environment.visible_eq h.mirror.distinct h.get?_eq

/-- One request: both answer the same, and go on mirroring each other. -/
lemma respond (h : env.MirroredBy copies) (request : Request Var Fun)
    (binds : ∀ name value, request = .bind name value → env.frame.boundary = true) :
    (Environment.respond request env).1 = (Copies.respond request copies).1 ∧
      (Environment.respond request env).2.MirroredBy (Copies.respond request copies).2 := by
  cases request with
  | enter boundary => exact ⟨rfl, h.push boundary⟩
  | leave => exact ⟨rfl, h.pop⟩
  | declare name value => exact ⟨rfl, h.declare name value⟩
  | assign name value =>
    -- What is visible to the one the other has a copy of, so both find the name or neither does.
    have contains := h.contains_eq name
    unfold Environment.respond Copies.respond
    dsimp only
    cases e : env.assign? name value with
    | some env' =>
      have found : env.isDefined name = true := by
        rw [isDefined, Option.isSome_iff_ne_none]
        intro absent
        rw [assign?_eq_none_iff.2 absent] at e
        cases e
      rw [contains, if_pos found]
      exact ⟨rfl, h.assign e⟩
    | none =>
      have absent : env.isDefined name = false := by
        rw [isDefined, assign?_eq_none_iff.1 e]
        rfl
      rw [contains, absent]
      exact ⟨rfl, h⟩
  | bind name value => exact ⟨rfl, h.bind value (.inl (binds name value rfl))⟩
  | define name function => exact ⟨rfl, h.define name function⟩
  | lookup name =>
    unfold Environment.respond Copies.respond
    dsimp only
    rw [h.get?_eq]
    cases env.lookup? name with
    | some value => exact ⟨rfl, h⟩
    | none => exact ⟨rfl, h⟩
  | isDefined name => exact ⟨congrArg Answer.truth (h.contains_eq name).symm, h⟩
  | visible => exact ⟨congrArg Answer.listed h.visible_eq, h⟩
  | function name => exact ⟨congrArg Answer.function (h.mirror.functions name).symm, h⟩

/-- Requests are answered alike by an environment and the copies that mirror it. -/
lemma answers_eq (h : env.MirroredBy copies) (requests : List (Request Var Fun))
    (binds : env.BindsInCalls requests) : env.answers requests = copies.answers requests := by
  induction requests generalizing env copies with
  | nil => rfl
  | cons request rest ih =>
    obtain ⟨answer, mirrored⟩ := h.respond request binds.1
    exact congrArg₂ List.cons answer (ih mirrored binds.2)

end MirroredBy

/-- An environment answers every list of requests as scopes do that copy all they see, provided that
names are bound in scopes of calls only. -/
theorem answers_eq_copying (requests : List (Request Var Fun))
    (binds : (root : Environment Var Fun).BindsInCalls requests) :
    (root : Environment Var Fun).answers requests =
      (Copies.root : Copies Var Fun).answers requests :=
  mirrored_root.answers_eq requests binds

/-- A call with an argument and a loop around it and inside it. -/
def sampleRequests : List (Request Nat Nat) :=
  [.declare "x" 1, .define "f" 7, .enter false, .declare "x" 2, .declare "y" 3, .enter true,
    .lookup "x", .bind "x" 4, .function "f", .define "f" 8, .enter false, .assign "x" 5,
    .declare "y" 6, .visible, .leave, .visible, .leave, .function "f", .assign "x" 9, .visible,
    .leave, .lookup "x", .assign "y" 0, .isDefined "y"]

/-- Requests with a call, in which a variable of the caller is assigned. -/
theorem answers_sampleRequests :
    (root : Environment Nat Nat).BindsInCalls sampleRequests ∧
      (root : Environment Nat Nat).answers sampleRequests =
        (Copies.root : Copies Nat Nat).answers sampleRequests := by
  have binds : (root : Environment Nat Nat).BindsInCalls sampleRequests :=
    ⟨nofun, nofun, nofun, nofun, nofun, nofun, nofun, fun _ _ _ => rfl, nofun, nofun, nofun, nofun,
      nofun, nofun, nofun, nofun, nofun, nofun, nofun, nofun, nofun, nofun, nofun, nofun, trivial⟩
  exact ⟨binds, answers_eq_copying sampleRequests binds⟩

end Environment

end ScriptLang
