import VersionedProperties.Numeral.Plain
import VersionedProperties.Text.Utf8

/-!
# Errors

Every way in which an operation can fail is a cause with the data that belongs to it. The wording of
all causes is in `message`. The errors of the properties themselves (`isPropertyError`) are told
apart from those of the system, of numerals and of the caller's own code: loading and saving wrap
the latter, so that the caller of these meets property errors only.
-/

namespace VersionedProperties

/-- Where a value is absent although one is needed. -/
inductive MissingValue where
  | tracked
  | pushed
  | assigned (name : Text)
  | default (name : Text)
  | loaded (name : Text)
  | given
  deriving DecidableEq

/-- The wording of an absent value. -/
def MissingValue.message : MissingValue → Text
  | .tracked => "Cannot track a None value"
  | .pushed => "Cannot push a None value, reset instead"
  | .assigned name => "Cannot set '" ++ name ++ "' to None, reset it instead"
  | .default name => "Default for '" ++ name ++ "' cannot be None"
  | .loaded name => "Loaded value for '" ++ name ++ "' cannot be None"
  | .given => "Cannot set a None value, use reset instead"

/-- Why the references of a value cannot be expanded. -/
inductive EvaluationError where
  /-- A property is reached from its own expansion; the chain ends with the repeated name. -/
  | cyclic (chain : List Text)
  /-- The resolution path has grown beyond the greatest depth. -/
  | tooDeep (maxDepth : Int) (chain : List Text)
  /-- A referenced property does not exist and nothing stands in for it. -/
  | unresolved (name : Text)
  deriving DecidableEq

/-- Names in resolution order, as shown in messages. -/
def chainText (chain : List Text) : Text := Text.joined " -> " chain

/-- The wording of an evaluation error. -/
def EvaluationError.message : EvaluationError → Text
  | .cyclic chain => "Cyclic reference: " ++ chainText chain
  | .tooDeep maxDepth chain =>
    "Reference depth " ++ Text.ofString (toString maxDepth) ++ " exceeded while resolving " ++
      chainText chain
  | .unresolved name => "Unresolved reference to '" ++ name ++ "'"

/-- What a JSON document may hold instead of what is needed. -/
inductive ValueKind where
  | null
  | boolean
  | integer
  | real
  | string
  | array
  | object
  deriving DecidableEq

/-- The name of a kind of value. -/
def ValueKind.name : ValueKind → Text
  | .null => "NoneType"
  | .boolean => "bool"
  | .integer => "int"
  | .real => "float"
  | .string => "str"
  | .array => "list"
  | .object => "dict"

/-- A part of a JSON document that holds others. -/
inductive Container where
  | array
  | object
  deriving DecidableEq

/-- The name of a container. -/
def Container.name : Container → Text
  | .array => "array"
  | .object => "object"

/-- What is wrong with a document. -/
inductive FormatFault where
  | truncatedEscape (rest : Text)
  | malformedEscape (digits : Text)
  | missingName
  | byteOrderMark
  | expectingValue
  | expectingName
  | expectingColon
  | expectingComma
  | extraData
  | unterminatedString
  | controlCharacter
  | unknownEscape
  | unicodeEscape
  | notObject (found : ValueKind)
  | notScalar (name : Text) (found : ValueKind)
  deriving DecidableEq

/-- The wording of a fault, without its place. -/
def FormatFault.message : FormatFault → Text
  | .truncatedEscape rest => "truncated \\u escape " ++ rest.quoted
  | .malformedEscape digits => "malformed \\u escape \\u" ++ digits
  | .missingName => "missing property name"
  | .byteOrderMark => "Unexpected UTF-8 BOM (decode using utf-8-sig)"
  | .expectingValue => "Expecting value"
  | .expectingName => "Expecting property name enclosed in double quotes"
  | .expectingColon => "Expecting ':' delimiter"
  | .expectingComma => "Expecting ',' delimiter"
  | .extraData => "Extra data"
  | .unterminatedString => "Unterminated string starting at"
  | .controlCharacter => "Invalid control character at"
  | .unknownEscape => "Invalid \\escape"
  | .unicodeEscape => "Invalid \\uXXXX escape"
  | .notObject found => "expected a JSON object, got " ++ found.name
  | .notScalar name found => "property '" ++ name ++ "' must be a scalar, got " ++ found.name

/-- A document that cannot be read, with the number of the line where that is known. -/
structure FormatError where
  fault : FormatFault
  line : Option Nat
  deriving DecidableEq

/-- The wording of a format error. -/
def FormatError.message (e : FormatError) : Text :=
  match e.line with
  | some line => "line " ++ Text.ofString (toString line) ++ ": " ++ e.fault.message
  | none => e.fault.message

/-- An error of the file system. -/
inductive SystemError where
  | fileExists
  | isDirectory
  | notDirectory
  | notFound
  | nameTooLong
  | busy
  | invalidArgument
  /-- A path or a variable holds the code point zero, at which a name ends for the system. -/
  | nullByte
  /-- The name of a variable holds an equals sign. -/
  | illegalVariable
  /-- Any other failure of the device. -/
  | device
  deriving DecidableEq

/-- The wording of a system error. -/
def SystemError.message : SystemError → Text
  | .fileExists => "File exists"
  | .isDirectory => "Is a directory"
  | .notDirectory => "Not a directory"
  | .notFound => "No such file or directory"
  | .nameTooLong => "File name too long"
  | .busy => "Device or resource busy"
  | .invalidArgument => "Invalid argument"
  | .nullByte => "embedded null byte"
  | .illegalVariable => "illegal environment variable name"
  | .device => "Input/output error"

/-- What is done to a backing file. -/
inductive FileAction where
  | loading
  | reloading
  | saving
  deriving DecidableEq

/-- The name of an action. -/
def FileAction.name : FileAction → Text
  | .loading => "Loading"
  | .reloading => "Reloading"
  | .saving => "Saving"

/-- The wording of a failed action on a file. -/
def FileAction.failureMessage (action : FileAction) (path reason : Text) : Text :=
  action.name ++ " of " ++ path ++ " failed: " ++ reason

/-- Why an enumeration cannot be declared, or why its members cannot be used. Kinds of values are
given by their names. -/
inductive EnumerationError where
  /-- A name is declared a second time; `value` shows what it was declared with. -/
  | declaredTwice (name value : Text)
  /-- A name is declared that is reserved. -/
  | reserved (name : Text)
  /-- Names are declared that no member can have. -/
  | impossible (names : List Text)
  /-- Names are left out after they became members. -/
  | lateExclusion (names : List Text)
  /-- The members come in another order than the declared one. -/
  | otherOrder (members order : List Text)
  /-- A value of another kind stands in place of a list of names. -/
  | notNames (kind : Text)
  /-- A value stands in place of an operation. -/
  | notOperation (kind : Text)
  /-- The name of the enumeration holds the code point zero. -/
  | nullInName
  /-- The full name of the enumeration is no text. -/
  | fullName (kind : Text)
  /-- A value stands in place of the cell of the enumeration; `type` describes its type. -/
  | noCell (type : Text)
  /-- A slot has a name that is no identifier. -/
  | slotName
  /-- A slot would hold what every member holds already. -/
  | slotHeld (name : Text)
  /-- A slot for references to members, which cannot be declared. -/
  | slotForReferences
  /-- A slot has the name of something else. -/
  | slotTaken (name : Text)
  /-- Something of a kind lacks an attribute. -/
  | noAttribute (kind name : Text)
  /-- Values of a kind cannot be looked up. -/
  | notHashable (kind : Text)
  deriving DecidableEq

/-- Names in quotes with a separator between neighbours. -/
def quotedNames (separator : Text) (names : List Text) : Text :=
  Text.joined separator (names.map Text.quoted)

/-- The wording of an error of an enumeration. -/
def EnumerationError.message : EnumerationError → Text
  | .declaredTwice name value => name.quoted ++ " already defined as " ++ value
  | .reserved name =>
    "_sunder_ names, such as " ++ name.quoted ++ ", are reserved for future Enum use"
  | .impossible names => "invalid enum member name(s) " ++ quotedNames "," names
  | .lateExclusion names =>
    "_ignore_ cannot specify already set names: \x7b" ++ quotedNames ", " names ++ "\x7d"
  | .otherOrder members order =>
    "member order does not match _order_:\n  [" ++ quotedNames ", " members ++ "]\n  [" ++
      quotedNames ", " order ++ "]"
  | .notNames kind => "'" ++ kind ++ "' object is not iterable"
  | .notOperation kind => "'" ++ kind ++ "' object is not callable"
  | .nullInName => "type name must not contain null characters"
  | .fullName kind => "type __qualname__ must be a str, not " ++ kind
  | .noCell type => "__classcell__ must be a nonlocal cell, not " ++ type
  | .slotName => "__slots__ must be identifiers"
  | .slotHeld name => name ++ " slot disallowed: we already got one"
  | .slotForReferences =>
    "__weakref__ slot disallowed: either we already got one, or __itemsize__ != 0"
  | .slotTaken name => name.quoted ++ " in __slots__ conflicts with class variable"
  | .noAttribute kind name => "'" ++ kind ++ "' object has no attribute " ++ name.quoted
  | .notHashable kind => "unhashable type: '" ++ kind ++ "'"

/-- Why an operation fails. -/
inductive Error where
  | missingValue (place : MissingValue)
  | unknownProperty (name : Text)
  | notLoaded (path : Text)
  | format (e : FormatError)
  | evaluation (e : EvaluationError)
  /-- An error of another kind met while a file was loaded or saved. -/
  | failed (action : FileAction) (path : Text) (cause : Error)
  | numeral (fault : Numeral.Fault)
  /-- Arrays and objects of a document are nested too deeply. -/
  | tooNested (container : Container)
  | notMember (value owner : Text)
  | noKey (owner name : Text)
  | unknownEvent (name : Text)
  | unknownPolicy (name : Text)
  | unknownOption (name : Text)
  /-- A key, a listener or an enumeration is asked for that is not declared. -/
  | undeclared (name : Text)
  | enumeration (e : EnumerationError)
  /-- A view is asked for an operation that it does not have. -/
  | noOperation (name : Text)
  | undecodable (fault : Utf8.Malformed)
  | unencodable (fault : Utf8.Unencodable)
  /-- A file is to be written at a path without a name. -/
  | namelessFile (path : Text)
  /-- A text is no hexadecimal text of bytes. -/
  | notHexadecimal (position : Nat)
  | system (e : SystemError)
  | missingDefaults (path : Text)
  /-- The workers no longer take work. -/
  | workersClosed
  /-- An error of the caller's own code. -/
  | raised (message : Text)
  deriving DecidableEq

namespace Error

/-- The wording of an error. -/
def message : Error → Text
  | .missingValue place => place.message
  | .unknownProperty name => "Unknown property '" ++ name ++ "' (no value and no default)"
  | .notLoaded path => "Properties from " ++ path ++ " have not been loaded yet"
  | .format e => e.message
  | .evaluation e => e.message
  | .failed action path cause => action.failureMessage path cause.message
  | .numeral fault => fault.message
  | .tooNested container =>
    "maximum recursion depth exceeded while decoding a JSON " ++ container.name ++
      " from a unicode string"
  | .notMember value owner => value.quoted ++ " is not a " ++ owner ++ " member"
  | .noKey owner name => owner ++ " has no key for property '" ++ name ++ "'"
  | .unknownEvent name => name.quoted ++ " is not a valid PropertyEventType"
  | .unknownPolicy name => name.quoted ++ " is not a valid MissingReferencePolicy"
  | .unknownOption name =>
    "FrameworkConfig.__init__() got an unexpected keyword argument " ++ name.quoted
  | .undeclared name => name
  | .enumeration e => e.message
  | .noOperation name => "'ManagedProperty' object has no attribute " ++ name.quoted
  | .undecodable fault => fault.message
  | .unencodable fault => fault.message
  | .namelessFile path => "PosixPath(" ++ path.quoted ++ ") has an empty name"
  | .notHexadecimal position =>
    "non-hexadecimal number found in fromhex() arg at position " ++
      Text.ofString (toString position)
  | .system e => e.message
  | .missingDefaults path => "Defaults file not found: " ++ path
  | .workersClosed => "cannot schedule new futures after shutdown"
  | .raised text => text

/-- Whether an error belongs to the properties, and not to the system or to the caller. -/
def isPropertyError : Error → Bool
  | .missingValue _ | .unknownProperty _ | .notLoaded _ | .format _ | .evaluation _
  | .failed _ _ _ => true
  | _ => false

end Error

end VersionedProperties
