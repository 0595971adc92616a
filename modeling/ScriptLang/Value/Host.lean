import ScriptLang.Number.Reader
import ScriptLang.Text.Quoted
import ScriptLang.Value.Printer

/-!
# Host objects

A host that embeds scripts has data of its own: whole numbers of any size, lists that can change,
mappings, and nothing at all. `Object` holds these beside what scripts know. `Object.toValue` brings
an object into the script world, where whole numbers become numbers and every list a list of values,
and `Object.ofValue` and `Object.takeOut` take a value back, with lists the host can change.
-/

namespace ScriptLang

/-- Data of a host. A `sequence` cannot change and is what scripts call a list. -/
inductive Object where
  | nothing
  | integer (value : Int)
  | number (value : Float)
  | string (value : String)
  | boolean (value : Bool)
  | function (f : FunctionValue)
  | sequence (elements : List Object)
  | array (elements : List Object)
  | mapping (entries : List (String × Object))

instance : Inhabited Object := ⟨.nothing⟩

/-- Why an object has no counterpart in the other world. -/
inductive ConversionError where
  | notConvertible (hostType : String)
  | integerTooLarge
  | notAValue (shown : String)
  deriving DecidableEq, Repr

/-- The message of a conversion that failed. -/
def ConversionError.message : ConversionError → String
  | notConvertible hostType => "Cannot convert " ++ hostType ++ " to a script value."
  | integerTooLarge => "int too large to convert to float"
  | notAValue shown => "Not a script value: " ++ shown

namespace Object

/-- The type of an object. -/
def typeName : Object → TypeName
  | nothing => .nothing
  | integer _ => .integer
  | number _ => .number
  | string _ => .string
  | boolean _ => .boolean
  | function _ => .function
  | sequence _ => .list
  | array _ => .list
  | mapping _ => .mapping

mutual

/-- A value as an object. -/
def ofValue : Value → Object
  | .number value => number value
  | .string value => string value
  | .boolean value => boolean value
  | .list elements => sequence (ofValues elements)
  | .function value => function value

/-- Values as objects. -/
def ofValues : List Value → List Object
  | [] => []
  | value :: rest => ofValue value :: ofValues rest

end

mutual

/-- The value that an object is, if it is one. -/
def asValue? : Object → Option Value
  | number value => some (.number value)
  | string value => some (.string value)
  | boolean value => some (.boolean value)
  | function value => some (.function value)
  | sequence elements => (asValues? elements).map .list
  | _ => none

/-- The values that objects are, if all of them are. -/
def asValues? : List Object → Option (List Value)
  | [] => some []
  | object :: rest => do return (← asValue? object) :: (← asValues? rest)

end

/-- Whether an object is a value. -/
def isValue (object : Object) : Bool := object.asValue?.isSome

/-- Whether an object is a number of a script. -/
def isNumber : Object → Bool
  | number _ => true
  | _ => false

/-- Whether an object is a function of a script. -/
def isFunction : Object → Bool
  | function _ => true
  | _ => false

mutual

/-- The value that stands for an object. -/
def toValue : Object → Except ConversionError Value
  | nothing => .error (.notConvertible "NoneType")
  | integer value =>
    match Number.ofInt? value with
    | some nearest => .ok (.number nearest)
    | none => .error .integerTooLarge
  | number value => .ok (.number value)
  | string value => .ok (.string value)
  | boolean value => .ok (.boolean value)
  | function value => .ok (.function value)
  | sequence elements => (toValues elements).map .list
  | array elements => (toValues elements).map .list
  | mapping _ => .error (.notConvertible "dict")

/-- The values that stand for objects. The first that has none decides the error. -/
def toValues : List Object → Except ConversionError (List Value)
  | [] => .ok []
  | object :: rest => do return (← toValue object) :: (← toValues rest)

end

mutual

/-- A value with its lists as lists that the host can change. -/
def exported : Value → Object
  | .number value => number value
  | .string value => string value
  | .boolean value => boolean value
  | .list elements => array (exportedAll elements)
  | .function value => function value

/-- Values with their lists as lists that the host can change. -/
def exportedAll : List Value → List Object
  | [] => []
  | value :: rest => exported value :: exportedAll rest

end

mutual

/-- An object as the host itself writes it. -/
def literal : Object → String
  | nothing => "None"
  | integer value => toString value
  | number value => Number.roundTrip value
  | string value => String.ofList (Text.quoted value.toList)
  | boolean value => if value then "True" else "False"
  | function value => value.text
  | sequence [element] => "(" ++ literal element ++ ",)"
  | sequence elements => "(" ++ commaSeparated (literals elements) ++ ")"
  | array elements => "[" ++ commaSeparated (literals elements) ++ "]"
  | mapping entries => "\x7b" ++ commaSeparated (entryLiterals entries) ++ "\x7d"

/-- Objects as the host itself writes them. -/
def literals : List Object → List String
  | [] => []
  | object :: rest => literal object :: literals rest

/-- The entries of a mapping as the host itself writes them. -/
def entryLiterals : List (String × Object) → List String
  | [] => []
  | (key, object) :: rest =>
    (String.ofList (Text.quoted key.toList) ++ ": " ++ literal object) :: entryLiterals rest

end

mutual

/-- An object as it is printed: like a value, nothing as no text, the rest as the host writes it. -/
def text : Object → String
  | nothing => ""
  | number value => Number.text value
  | string value => value
  | boolean value => booleanText value
  | sequence elements => "[ " ++ commaSeparated (texts elements) ++ " ]"
  | object => literal object

/-- Objects as they are printed. -/
def texts : List Object → List String
  | [] => []
  | object :: rest => text object :: texts rest

end

mutual

/-- An object as it is echoed. -/
def echo : Object → String
  | string value => quote value
  | sequence elements => "[" ++ commaSeparated (echoes elements) ++ "]"
  | object => text object

/-- Objects as they are echoed. -/
def echoes : List Object → List String
  | [] => []
  | object :: rest => echo object :: echoes rest

end

/-- Takes a value out of the script world. Nothing stays nothing. -/
def takeOut : Object → Except ConversionError Object
  | nothing => .ok nothing
  | object =>
    match object.asValue? with
    | some value => .ok (exported value)
    | none => .error (.notAValue object.literal)

end Object

end ScriptLang
