import OpenCrud.Text.Quoted

/-!
# Arguments of the command line

The commands with their options, and how arguments give options: a long name with its value behind `=` or in
the next argument, and letters behind one hyphen, of which the last may have its value attached or in the
next argument. Reading looks neither at values nor at files, so it only refuses options that do not exist
and values that are missing or too many.
-/

namespace OpenCrud.CommandLine

/-! ## Commands and options -/

/-- A command. -/
inductive CommandName where
  | schema
  | client
  deriving DecidableEq, Repr

/-- An option of a command, or of the program itself. -/
inductive OptionName where
  | datamodel | database | lang | endpoint | secret | output | verbose | help | version
  deriving DecidableEq, Repr

/-- The text of a command. -/
def CommandName.text : CommandName → String
  | .schema => "schema"
  | .client => "client"

/-- Every command. -/
def CommandName.all : List CommandName := [.schema, .client]

/-- The command of a text. -/
def CommandName.ofText? (text : String) : Option CommandName := all.find? (·.text = text)

/-- The ways to write an option. -/
def OptionName.spellings : OptionName → List String
  | .datamodel => ["--datamodel", "-d"]
  | .database => ["--database"]
  | .lang => ["--lang", "-l"]
  | .endpoint => ["--endpoint"]
  | .secret => ["--secret"]
  | .output => ["--output", "-o"]
  | .verbose => ["--verbose", "-v"]
  | .help => ["--help"]
  | .version => ["--version"]

/-- Whether an option has a value. -/
def OptionName.takesValue : OptionName → Bool
  | .datamodel | .database | .lang | .endpoint | .secret | .output => true
  | .verbose | .help | .version => false

/-- Where options are given: to a command, or to the program itself. -/
inductive Scope where
  | program
  | command (name : CommandName)
  deriving DecidableEq, Repr

namespace Scope

/-- The options that can be given, in the order in which they are checked when they are absent. -/
def options : Scope → List OptionName
  | .program => [.version, .help]
  | .command .schema => [.datamodel, .database, .output, .verbose, .help]
  | .command .client =>
    [.datamodel, .database, .lang, .endpoint, .secret, .output, .verbose, .help]

/-- The option of a spelling. -/
def option? (scope : Scope) (spelling : String) : Option OptionName :=
  scope.options.find? (·.spellings.contains spelling)

/-- The long names of the options. -/
def longSpellings (scope : Scope) : List String :=
  (scope.options.flatMap OptionName.spellings).filter fun spelling => spelling.startsWith "--"

end Scope

/-! ## Refusals -/

/-- What is wrong with the value of an option. -/
inductive ValueProblem where
  | notFound (path : String)
  | isDirectory (path : String)
  | notAChoice (value : String) (choices : List String)
  deriving DecidableEq, Repr

/-- Why a command line is not carried out. -/
inductive Refusal where
  | asksForHelp (scope : Scope)
  | missingCommand
  | noSuchCommand (name : String)
  | noSuchOption (scope : Scope) (spelling : String)
  | needsValue (spelling : String)
  | takesNoValue (spelling : String)
  | missingOption (command : CommandName) (option : OptionName)
  | invalidValue (command : CommandName) (option : OptionName) (problem : ValueProblem)
  | extraArguments (command : CommandName) (arguments : List String)
  deriving DecidableEq, Repr

/-! ## One argument -/

/-- An option as it is given. -/
structure Given where
  option : OptionName
  value : Option String := none
  deriving DecidableEq, Repr

/-- The options in one argument. The last may wait for the next argument as its value; its spelling is kept
for the case that there is none. -/
structure ArgumentOptions where
  settled : List Given := []
  waiting : Option (OptionName × String) := none

/-- A text before and after its first `=`. -/
def splitAtEquals (text : List Char) : String × Option String :=
  match text.span (· ≠ '=') with
  | (name, _ :: value) => (String.ofList name, some (String.ofList value))
  | (name, []) => (String.ofList name, none)

/-- The option in an argument that begins with two hyphens. -/
def readLong (scope : Scope) (argument : List Char) : Except Refusal ArgumentOptions :=
  let (spelling, value) := splitAtEquals argument
  match scope.option? spelling with
  | none => .error (.noSuchOption scope spelling)
  | some option =>
    match option.takesValue, value with
    | true, some value => .ok { settled := [⟨option, some value⟩] }
    | true, none => .ok { waiting := some (option, spelling) }
    | false, some _ => .error (.takesNoValue spelling)
    | false, none => .ok { settled := [⟨option, none⟩] }

/-- The options in the letters behind one hyphen. -/
def readShort (scope : Scope) : List Char → Except Refusal ArgumentOptions
  | [] => .ok {}
  | letter :: letters =>
    let spelling := String.ofList ['-', letter]
    match scope.option? spelling with
    | none => .error (.noSuchOption scope spelling)
    | some option =>
      if option.takesValue then
        if letters.isEmpty then .ok { waiting := some (option, spelling) }
        else .ok { settled := [⟨option, some (String.ofList letters)⟩] }
      else do
        let more ← readShort scope letters
        return { more with settled := ⟨option, none⟩ :: more.settled }

/-- The options in an argument; none for an argument that gives no option. -/
def readArgument (scope : Scope) (argument : String) : Option (Except Refusal ArgumentOptions) :=
  match argument.toList with
  | '-' :: '-' :: rest => some (readLong scope ('-' :: '-' :: rest))
  | '-' :: letter :: letters => some (readShort scope (letter :: letters))
  | _ => none

/-! ## All arguments -/

/-- The options given to a command in order, and the arguments that give no option. -/
structure Arguments where
  given : List Given := []
  others : List String := []

/-- The arguments of a command. Behind two hyphens no argument gives an option. -/
def readArguments (scope : Scope) : List String → Except Refusal Arguments
  | [] => .ok {}
  | argument :: rest =>
    if argument = "--" then .ok { others := rest }
    else match readArgument scope argument with
      | none => do
        let later ← readArguments scope rest
        return { later with others := argument :: later.others }
      | some (.error refusal) => .error refusal
      | some (.ok options) =>
        match options.waiting, rest with
        | none, rest => do
          let later ← readArguments scope rest
          return { later with given := options.settled ++ later.given }
        | some (option, _), value :: rest => do
          let later ← readArguments scope rest
          return { later with given := options.settled ++ ⟨option, some value⟩ :: later.given }
        | some (_, spelling), [] => .error (.needsValue spelling)

/-! ## The command line -/

/-- A command with its arguments. -/
structure Call where
  command : CommandName
  arguments : Arguments

/-- The command that a text names, with its arguments. -/
def Call.ofCommand (text : String) (rest : List String) : Except Refusal Call :=
  match CommandName.ofText? text with
  | none => .error (.noSuchCommand text)
  | some command => do return { command, arguments := ← readArguments (.command command) rest }

/-- The call of a command line that starts with an argument. The program's own options only ask for
help. -/
def Call.ofFirst (argument : String) (rest : List String) : Except Refusal Call :=
  match readArgument .program argument with
  | none => Call.ofCommand argument rest
  | some (.error refusal) => .error refusal
  | some (.ok _) => .error (.asksForHelp .program)

/-- The call that a command line makes. Two hyphens may stand in front once. -/
def Call.read : List String → Except Refusal Call
  | [] => .error (.asksForHelp .program)
  | "--" :: [] => .error .missingCommand
  | "--" :: "--" :: rest => Call.ofCommand "--" rest
  | "--" :: argument :: rest => Call.ofFirst argument rest
  | argument :: rest => Call.ofFirst argument rest

end OpenCrud.CommandLine
