import VersionedProperties.Error
import VersionedProperties.Mapping
import VersionedProperties.Numeral.Integer
import VersionedProperties.Text.LetterCase

/-!
# Options

The options that components take when they are given none of their own. Where options are built, the
variables of the environment override what is given; a variable that cannot be read is left aside
with a warning. `Settings` holds the environment together with the options in force.
-/

namespace VersionedProperties

/-- What a reference to a missing property, without anything standing in for it, expands to. -/
inductive MissingPolicy where
  /-- The reference as it is written. -/
  | keep
  /-- Nothing. -/
  | empty
  /-- An error. -/
  | fail
  deriving DecidableEq

/-- All policies. -/
def MissingPolicy.all : List MissingPolicy := [.keep, .empty, .fail]

/-- The name of a policy. -/
def MissingPolicy.name : MissingPolicy → Text
  | .keep => "keep"
  | .empty => "empty"
  | .fail => "fail"

/-- The policy of a name. -/
def MissingPolicy.ofName? (name : Text) : Option MissingPolicy := all.find? (·.name = name)

/-- The policy of a name that must be one. -/
def MissingPolicy.named (name : Text) : Except Error MissingPolicy :=
  match ofName? name with
  | some policy => .ok policy
  | none => .error (.unknownPolicy name)

/-- Options with their defaults. -/
structure Options where
  /-- The most entries of a history; if not positive, every entry is kept. -/
  historyLimit : Int := 100
  /-- The longest resolution path of references. -/
  maxReferenceDepth : Int := 64
  missingPolicy : MissingPolicy := .keep
  /-- Whether values are trimmed when they are read through a manager. -/
  autoTrim : Bool := true
  /-- Whether values equal to their default are saved. -/
  savingDefaults : Bool := false
  /-- Whether the file is loaded at the first access. -/
  autoLoad : Bool := true
  disableValueCache : Bool := false
  deriving DecidableEq

/-- The names of all options. -/
def Options.names : List Text :=
  ["history_limit", "max_reference_depth", "missing_reference_policy", "auto_trim",
    "saving_defaults", "auto_load", "disable_value_cache"]

/-- Whether all names are names of options; otherwise the first that is not is refused. -/
def Options.checkNames (names : List Text) : Except Error Unit :=
  match names.find? (· ∉ Options.names) with
  | some name => .error (.unknownOption name)
  | none => .ok ()

/-- The limit of a history, unless one is given. -/
def Options.historyLimitOr (o : Options) (given : Option Int) : Int := given.getD o.historyLimit

/-- Whether values equal to their default are saved, unless it is given. -/
def Options.savingDefaultsOr (o : Options) (given : Option Bool) : Bool :=
  given.getD o.savingDefaults

/-- The variables of the environment. -/
abbrev Environment := Mapping Text Text

namespace Environment

/-- The variable that bounds histories. -/
def historyLimit : Text := "MANAGEDPROPS_HISTORY_LIMIT"

/-- The variable that bounds resolution paths. -/
def maxReferenceDepth : Text := "MANAGEDPROPS_MAX_REFERENCE_DEPTH"

/-- The variable that chooses the policy for missing properties. -/
def missingPolicy : Text := "MANAGEDPROPS_MISSING_REFERENCES"

/-- The variable that turns on saving of defaults. -/
def savingDefaults : Text := "MANAGEDPROPS_SAVING_DEFAULTS"

/-- The variable that turns off the value cache. -/
def disableValueCache : Text := "MANAGEDPROPS_DISABLE_VALUE_CACHE"

/-- The integer of a variable in place of a given one. A blank variable counts as unset, and one
that is no integer is left aside with a warning. -/
def overrideInteger (env : Environment) (name : Text) (given : Int) : Int × List Text :=
  match env.find? name with
  | none => (given, [])
  | some raw =>
    if raw.isBlank then (given, [])
    else
      match Numeral.readInteger 10 raw with
      | .ok n => (n, [])
      | .error _ => (given, ["Ignoring non-integer " ++ name ++ "=" ++ raw.quoted])

/-- The policy of its variable in place of a given one. -/
def overridePolicy (env : Environment) (given : MissingPolicy) : MissingPolicy × List Text :=
  let policy := Text.lower (Text.trim ((env.find? missingPolicy).getD []))
  if policy = [] then (given, [])
  else
    match MissingPolicy.ofName? policy with
    | some p => (p, [])
    | none => (given, ["Ignoring unknown " ++ missingPolicy ++ "=" ++ policy.quoted])

/-- Whether a variable turns an option on. -/
def flag (env : Environment) (name : Text) : Bool :=
  Text.lower ((env.find? name).getD []) ∈ ([("1" : Text), "true", "yes"] : List Text)

end Environment

/-- Options with the overrides of the environment, and the warnings about unreadable variables. -/
def Options.overridden (o : Options) (env : Environment) : Options × List Text :=
  let (historyLimit, w₁) := env.overrideInteger Environment.historyLimit o.historyLimit
  let (maxReferenceDepth, w₂) :=
    env.overrideInteger Environment.maxReferenceDepth o.maxReferenceDepth
  let (missingPolicy, w₃) := env.overridePolicy o.missingPolicy
  ({ o with
      historyLimit := historyLimit
      maxReferenceDepth := maxReferenceDepth
      missingPolicy := missingPolicy
      savingDefaults := env.flag Environment.savingDefaults || o.savingDefaults
      disableValueCache := env.flag Environment.disableValueCache || o.disableValueCache },
    w₁ ++ w₂ ++ w₃)

/-- The environment and the options in force. -/
structure Settings where
  environment : Environment := Mapping.empty
  options : Options := {}
  deriving DecidableEq

namespace Settings

/-- Why the environment refuses a variable, if it does. A name must not be empty and holds no equals
sign, and neither name nor value holds the code point zero. -/
def refusal? (name value : Text) : Option SystemError :=
  if (name ++ value).contains (.scalar '\x00') then some .nullByte
  else if name.contains (.scalar '=') then some .illegalVariable
  else if name = [] then some .invalidArgument
  else none

/-- A variable set or removed. Options that are already built do not change. -/
def setVariable (s : Settings) (name : Text) : Option Text → Except Error Settings
  | some value =>
    match refusal? name value with
    | some e => .error (.system e)
    | none => .ok { s with environment := s.environment.insert name value }
  | none => .ok { s with environment := s.environment.erase name }

/-- Options built in the environment. -/
def build (s : Settings) (given : Options) : Options × List Text := given.overridden s.environment

/-- Options built in the environment and put in force. -/
def install (s : Settings) (given : Options) : Settings × List Text :=
  let (options, warnings) := s.build given
  ({ s with options := options }, warnings)

end Settings

end VersionedProperties
