import VersionedProperties.Key.Attributes
import VersionedProperties.Key.NameUse
import VersionedProperties.Text.Blank
import VersionedProperties.Text.Identifier

/-!
# Drafts of enumerations

An enumeration is declared name by name, each with a value. The draft holds what is declared so far:
every name with its value, the members in order, and the names that are left out from here on. Only
a name that is new and not left out can become a member.

Some names of the enumeration itself have a meaning, and a value in their place can make the whole
draft fail (`Draft.fault?`).
-/

namespace VersionedProperties

/-- How the members of an enumeration are numbered, from one on. -/
inductive Numbering where
  /-- By their places among the members. -/
  | byMember
  /-- By their places among all declared names. -/
  | byDeclaration
  deriving DecidableEq

/-- What is declared of an enumeration so far. -/
structure Draft where
  /-- The declared names with their values. -/
  values : Mapping Text (Option TypedValue) := .empty
  members : List Text := []
  /-- The value that gives the order of the members. -/
  order : Option TypedValue := none
  /-- The names that are left out. -/
  excluded : List Text := []

namespace Draft

/-- A draft with one more name. -/
def keep (d : Draft) (name : Text) (value : Option TypedValue) : Draft :=
  { d with values := d.values.insert name value }

/-- The names that a value lists, divided by blanks and commas. -/
def listedNames : Option TypedValue → Except EnumerationError (List Text)
  | some (.text t) => .ok (Text.words (Text.replace "," " " t))
  | v => .error (.notNames (TypedValue.kindName v))

/-- A draft in which a value lists the names that are left out from here on. -/
def exclude (d : Draft) (value : Option TypedValue) : Except EnumerationError Draft :=
  match listedNames value with
  | .error e => .error e
  | .ok names =>
    match d.members.filter (· ∈ names) with
    | [] => .ok { d with excluded := names }
    | late => .error (.lateExclusion late)

/-- A draft with one more member, unless the name is left out. -/
def addMember (d : Draft) (name : Text) (value : Option TypedValue) :
    Except EnumerationError Draft :=
  if name ∈ d.excluded then .ok (d.keep name value)
  else
    match d.values.find? name with
    | some earlier => .error (.declaredTwice name (TypedValue.shown? earlier))
    | none => .ok { d.keep name value with members := d.members ++ [name] }

/-- A draft with one more declaration. -/
def add (enumeration : Text) (d : Draft) (declaration : Text × Option TypedValue) :
    Except EnumerationError Draft :=
  let (name, value) := declaration
  match NameUse.ofName enumeration name with
  | .member => d.addMember name value
  | .attribute => .ok (d.keep name value)
  | .exclusion => d.exclude value
  | .order => .ok { d with order := value }
  | .reserved => .error (.reserved name)

/-- The value of a name that is not left out. -/
def value? (d : Draft) (name : Text) : Option (Option TypedValue) :=
  if name ∈ d.excluded then none else d.values.find? name

/-- Names that no member can have. -/
def impossibleNames : List Text := [[], "mro"]

/-- The attributes of the enumeration that the draft declares. -/
def attributes (enumeration : Text) (d : Draft) : Attributes where
  owner := enumeration
  values := d.values.filter fun name _ => name ∉ d.excluded
  slot :=
    match d.value? "__slots__" with
    | some (some (.text t)) => some (NameUse.privateName enumeration t)
    | _ => none

/-- The names that every enumeration has, unless they are left out. -/
def commonNames : List Text := ["_generate_next_value_", "__module__"]

/-- The names that every enumeration has while it is made. -/
def innerNames : List Text :=
  ["_new_member_", "_use_args_", "_member_names_", "_member_map_", "_value2member_map_",
    "_unhashable_values_", "_member_type_", "_value_repr_", "_boundary_", "_flag_mask_",
    "_singles_mask_", "_all_bits_", "_inverted_"]

/-- Whether the enumeration has something under a name. -/
def isTaken (d : Draft) (name : Text) : Bool :=
  name ∈ innerNames || (name ∉ d.excluded && (name ∈ commonNames || d.values.contains name))

/-- The names of slots that are never taken. -/
def freeSlots : List Text := ["__qualname__", "__classcell__"]

/-- The fault of the value that is declared as a slot. -/
def slotFault? (d : Draft) (enumeration : Text) : Option TypedValue → Option EnumerationError
  | some (.text t) =>
    let name := NameUse.privateName enumeration t
    if !t.isIdentifier then some .slotName
    else if t = "__dict__" then some (.slotHeld t)
    else if t = "__weakref__" then some .slotForReferences
    else if t ∉ freeSlots ∧ d.isTaken name then some (.slotTaken name)
    else none
  | v => some (.notNames (TypedValue.kindName v))

/-- The fault of the value that is declared as full name. -/
def fullNameFault? : Option TypedValue → Option EnumerationError
  | some (.text _) => none
  | v => some (.fullName (TypedValue.kindName v))

/-- The fault of a value that is declared as cell. -/
def cellFault (v : Option TypedValue) : EnumerationError :=
  match v with
  | some (.member _) => .noCell ("<enum '" ++ TypedValue.enumeration ++ "'>")
  | v => .noCell ("<class '" ++ TypedValue.kindName v ++ "'>")

/-- The first fault of making the members, if there are any. A member that is numbered by its place
among all names is asked for its number before it is set. -/
def makingFault? (d : Draft) (a : Attributes) (numbering : Numbering) : Option EnumerationError :=
  if d.members = [] then none
  else
    a.makingFault?
      <|> (match numbering with
        | .byMember => a.settingFault? <|> a.readingFault?
        | .byDeclaration => a.readingFault? <|> a.askingFault? <|> a.settingFault?)
      <|> a.completionFault?

/-- The fault of the value that is declared as order of the members. -/
def orderFault? (d : Draft) : Option EnumerationError :=
  if TypedValue.isVoid d.order ∨ NameUse.orderName ∈ d.excluded then none
  else
    match listedNames d.order with
    | .error e => some e
    | .ok names =>
      if names = [] ∨ names = d.members then none else some (.otherOrder d.members names)

/-- The fault of the names of members. -/
def nameFault? (d : Draft) : Option EnumerationError :=
  match d.members.filter (· ∈ impossibleNames) with
  | [] => none
  | names => some (.impossible names)

/-- The first fault of a draft, if it has one. -/
def fault? (enumeration : Text) (numbering : Numbering) (d : Draft) : Option EnumerationError :=
  d.nameFault?
    <|> (d.value? "__slots__").bind (d.slotFault? enumeration)
    <|> (if CodePoint.scalar '\x00' ∈ enumeration then some .nullInName else none)
    <|> (d.value? "__qualname__").bind fullNameFault?
    <|> (d.value? "__classcell__").map cellFault
    <|> d.makingFault? (d.attributes enumeration) numbering
    <|> d.orderFault?

/-- The draft of an enumeration with all its declarations. -/
def ofDeclarations (enumeration : Text) (numbering : Numbering)
    (declarations : List (Text × Option TypedValue)) : Except EnumerationError Draft :=
  match declarations.foldlM (add enumeration) {} with
  | .error e => .error e
  | .ok d =>
    match d.fault? enumeration numbering with
    | some e => .error e
    | none => .ok d

/-- The draft of an enumeration whose names have their places as values. -/
def ofNames (enumeration : Text) (names : List Text) : Except EnumerationError Draft :=
  ofDeclarations enumeration .byDeclaration
    ((names.zip (List.range' 1 names.length)).map fun e => (e.1, some (.integer e.2)))

end Draft

end VersionedProperties
