import OpenCrud.Client.Language
import OpenCrud.CommandLine.Argument
import OpenCrud.Datamodel.Basic
import OpenCrud.Options

/-!
# Jobs

A job is a command line that can be carried out: every value has been checked. Options are checked in the
order in which they are given, then the absent ones, then whether there are other arguments; the first
problem counts.
-/

namespace OpenCrud.CommandLine

/-- What a path leads to. -/
inductive PathStatus where
  | missing
  | file
  | directory
  deriving DecidableEq, Repr

/-- What a job makes out of a datamodel. -/
inductive Task where
  | schema
  | client (language : Client.Language) (options : ClientOptions)
  deriving DecidableEq, Repr

/-- What a command line asks for. -/
structure Job where
  task : Task
  datamodel : String
  database : Database
  output : Option String
  isVerbose : Bool
  deriving DecidableEq, Repr

namespace Call

/-- Whether an option is given. -/
def has (call : Call) (option : OptionName) : Bool := call.arguments.given.any (·.option = option)

/-- The value of an option; the last one given counts. -/
def value? (call : Call) (option : OptionName) : Option String :=
  (call.arguments.given.reverse.find? (·.option = option)).bind (·.value)

/-- The paths that a call mentions. -/
def paths (call : Call) : List String :=
  (call.value? .datamodel).toList ++ (call.value? .output).toList

section Values

variable (status : String → PathStatus) (call : Call)

/-- Refuses the value of an option. -/
def invalid {α : Type} (option : OptionName) (problem : ValueProblem) : Except Refusal α :=
  .error (.invalidValue call.command option problem)

/-- The path of the datamodel, which has to be a file. -/
def datamodel : Except Refusal String :=
  match call.value? .datamodel with
  | none => .error (.missingOption call.command .datamodel)
  | some path =>
    match status path with
    | .missing => call.invalid .datamodel (.notFound path)
    | .directory => call.invalid .datamodel (.isDirectory path)
    | .file => .ok path

/-- The path to write to, which must not be a directory. -/
def output : Except Refusal (Option String) :=
  match call.value? .output with
  | none => .ok none
  | some path =>
    if status path = .directory then call.invalid .output (.isDirectory path) else .ok (some path)

/-- The kind of database. -/
def database : Except Refusal Database :=
  match call.value? .database with
  | none => .ok .relational
  | some name =>
    match Database.ofName? name with
    | some database => .ok database
    | none =>
      call.invalid .database
        (.notAChoice name ([Database.relational, .document].map Database.name))

/-- The language of a client. -/
def language : Except Refusal Client.Language :=
  match call.value? .lang with
  | none => .ok .typescript
  | some name =>
    match Client.Language.ofName? name with
    | some language => .ok language
    | none => call.invalid .lang (.notAChoice name (Client.Language.all.map Client.Language.name))

/-- Checks one option. -/
def checkOption : OptionName → Except Refusal Unit
  | .datamodel => do let _ ← call.datamodel status
  | .database => do let _ ← call.database
  | .lang => do let _ ← call.language
  | .output => do let _ ← call.output status
  | .endpoint | .secret | .verbose | .help | .version => .ok ()

/-- The options of a call in the order in which they are checked. -/
def checkOrder : List OptionName :=
  (call.arguments.given.map (·.option)).eraseDups
    ++ (Scope.command call.command).options.filter fun option => !call.has option

/-- Checks options in order. -/
def checkOptions : List OptionName → Except Refusal Unit
  | [] => .ok ()
  | option :: options => do
    call.checkOption status option
    checkOptions options

/-- The task of a call. -/
def task : Except Refusal Task :=
  match call.command with
  | .schema => .ok .schema
  | .client => do
    let language ← call.language
    return .client language
      { endpoint := call.value? .endpoint, secret := call.value? .secret }

/-- The job that a call asks for. -/
def job : Except Refusal Job := do
  if call.has .help then throw (.asksForHelp (.command call.command))
  call.checkOptions status call.checkOrder
  if !call.arguments.others.isEmpty then
    throw (.extraArguments call.command call.arguments.others)
  return {
    task := ← call.task
    datamodel := ← call.datamodel status
    database := ← call.database
    output := ← call.output status
    isVerbose := call.has .verbose }

end Values

end Call

end OpenCrud.CommandLine
