import ScriptLang.Bindings
import ScriptLang.Error

/-!
# Libraries

The functions of a host that scripts can call by name. A library maps names to functions, and
aliases to names; an alias is followed once. A function answers a call with what it does to the
outside and, if it fails, with a failure; since a host may keep state of its own, the answer may
depend on all calls made before.
-/

namespace ScriptLang

/-- The two streams that text is written to. -/
inductive Channel where
  | output | error
  deriving DecidableEq, Repr

/-- What a function of the host does to the outside. -/
inductive Effect where
  | write (channel : Channel) (text : String)
  | launch (command : List String)
  deriving DecidableEq, Repr

/-- A call of a function of the host. -/
structure HostCall where
  function : String
  arguments : List Value

/-- What a call of a function of the host leads to. -/
structure Response where
  effects : List Effect
  failure : Option Failure

/-- The arguments that a function of the host takes: some it needs, some it can do without, and
possibly any number more. -/
structure Signature where
  required : List String
  optional : Nat
  variadic : Bool
  deriving DecidableEq, Repr

/-- Why a number of arguments does not fit a signature, if it does not. -/
def Signature.problem? (s : Signature) (count : Nat) : Option ArgumentProblem :=
  match s.required[count]? with
  | some parameter => some (.missing parameter)
  | none =>
    if !s.variadic && s.required.length + s.optional < count then some .tooMany else none

/-- A function of the host. One without a signature takes any arguments. -/
structure Builtin where
  hostName : String
  signature : Option Signature
  respond : List HostCall → List Value → Response

/-- What a host hands over to be called by a name: a function, or something that is none. -/
inductive Candidate where
  | function (builtin : Builtin)
  | other (hostType : String)

/-- Why a library does not take what a host hands over. -/
inductive RegistrationError where
  | notCallable (name hostType : String)
  | danglingAlias (nickname name : String)
  deriving DecidableEq, Repr

/-- The message of a registration that failed. -/
def RegistrationError.message : RegistrationError → String
  | notCallable name hostType =>
    "Builtin `" ++ name ++ "` must be callable, got " ++ hostType ++ "."
  | danglingAlias nickname name =>
    "Alias `" ++ nickname ++ "` refers to unknown builtin `" ++ name ++ "`."

/-- Functions of the host by name, and other names for them. -/
structure Library where
  builtins : Bindings Builtin
  aliases : Bindings String

namespace Library

/-- The library without functions. -/
def empty : Library := ⟨.empty, .empty⟩

instance : Inhabited Library := ⟨empty⟩

/-- The name that a name stands for. -/
def resolve (library : Library) (name : String) : String := (library.aliases.get? name).getD name

/-- The function that a name stands for. -/
def builtin? (library : Library) (name : String) : Option Builtin :=
  library.builtins.get? (library.resolve name)

/-- Whether a name stands for a function. -/
def hasBuiltin (library : Library) (name : String) : Bool := (library.builtin? name).isSome

/-- The function that a name stands for, or the error that there is none. -/
def getBuiltin (library : Library) (name : String) : Except Cause Builtin :=
  match library.builtin? name with
  | some builtin => .ok builtin
  | none => .error (.unknownBuiltin name)

/-- Makes sure that the function of a name takes a number of arguments. -/
def checkArguments (library : Library) (name : String) (count : Nat) : Except Cause Unit :=
  match ((library.builtin? name).bind (·.signature)).bind (·.problem? count) with
  | some problem => .error (.builtinArity name count problem)
  | none => .ok ()

/-- Gives a name a function. -/
def addBuiltin (library : Library) (name : String) :
    Candidate → Except RegistrationError Library
  | .function builtin => .ok { library with builtins := library.builtins.set name builtin }
  | .other hostType => .error (.notCallable name hostType)

/-- Makes a name an alias of another. -/
def addAlias (library : Library) (nickname name : String) : Library :=
  { library with aliases := library.aliases.set nickname name }

/-- The first alias of a name that has no function, with that name. -/
def danglingAlias? (library : Library) : Option (String × String) :=
  library.aliases.entries.find? fun (_, name) => !library.builtins.contains name

/-- Makes sure that every alias is one of a function. -/
def ensureConsistent (library : Library) : Except RegistrationError Unit :=
  match library.danglingAlias? with
  | some (nickname, name) => .error (.danglingAlias nickname name)
  | none => .ok ()

/-- All names and aliases, sorted. -/
def names (library : Library) : List String :=
  (library.builtins.names ++ library.aliases.names).eraseDups.mergeSort fun a b => decide (a ≤ b)

/-- The mark at the start of the names that a host gives to the functions it offers. -/
def hostMark : List Char := ['o', 'p', '_']

/-- The name that scripts use for a function of the host: without the mark, and with a question mark
in place of a final `_q`. -/
def scriptName (hostName : String) : Except Cause String :=
  let cs := hostName.toList
  if hostMark.isPrefixOf cs then
    let name := cs.drop hostMark.length
    .ok (String.ofList
      (if ['_', 'q'].isSuffixOf name then name.take (name.length - 2) ++ ['?'] else name))
  else .error (.unmarkedBuiltin hostName)

end Library

end ScriptLang
