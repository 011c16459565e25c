/-!
# Client options

The expressions that a client can pass to the constructor of its bindings. They come as untyped
properties, so unknown names and values that are no text have to be refused; once made, options never
change.
-/

namespace OpenCrud

/-- What a property is set to, as far as the checks look. -/
inductive OptionValue where
  | absent
  | text (s : String)
  | other
  deriving DecidableEq, Repr

/-- Why a property is refused. -/
inductive OptionFault where
  | notText
  | unknownName
  | unchangeable
  deriving DecidableEq, Repr

/-- The short name of a fault. -/
def OptionFault.label : OptionFault → String
  | .notText => "string_type"
  | .unknownName => "extra_forbidden"
  | .unchangeable => "frozen_instance"

/-- Endpoint and secret expressions of a client. -/
structure ClientOptions where
  endpoint : Option String := none
  secret : Option String := none
  deriving DecidableEq, Repr

namespace ClientOptions

/-- The names of the options. -/
def names : List String := ["endpoint", "secret"]

/-- What is wrong with one property. -/
def fault? (property : String × OptionValue) : Option (String × OptionFault) :=
  if names.contains property.1 then
    match property.2 with
    | .other => some (property.1, .notText)
    | _ => none
  else some (property.1, .unknownName)

/-- The text of a property. -/
def text? (properties : List (String × OptionValue)) (name : String) : Option String :=
  match properties.lookup name with
  | some (.text s) => some s
  | _ => none

/-- Options from properties, or everything that is wrong with the properties. -/
def ofProperties (properties : List (String × OptionValue)) :
    Except (List (String × OptionFault)) ClientOptions :=
  match properties.filterMap fault? with
  | [] => .ok { endpoint := text? properties "endpoint", secret := text? properties "secret" }
  | faults => .error faults

/-- Whether a name is no option's and can be assigned to freely. -/
def isPrivate (name : String) : Bool := name.toList.head? = some '_'

/-- Assigning to options that exist fails, except under a private name, where it leaves the options as they
are. -/
def assign (options : ClientOptions) (name : String) (_ : OptionValue) :
    Except (List (String × OptionFault)) ClientOptions :=
  if isPrivate name then .ok options else .error [(name, .unchangeable)]

end ClientOptions

end OpenCrud
