import OpenCrud.Client.Source
import OpenCrud.CommandLine.Job
import OpenCrud.Datamodel.Parse
import OpenCrud.Generate.Assemble
import OpenCrud.Text.ControlSequence
import OpenCrud.Text.Lines
import OpenCrud.Text.Similar

/-!
# Outcomes

What carrying out a command line leads to: an exit code, what is written to the two streams, and perhaps a
file. A file is part of the outcome only when everything before it went well, and its note is shown only
when it has been written. Control sequences are for terminals: a stream that is none is written without them,
while a file holds the whole text.
-/

namespace OpenCrud.CommandLine

/-- A file to write, and what to show when it has been written. -/
structure OutputFile where
  path : String
  text : String
  note : String

/-- What a command line leads to. -/
structure Outcome where
  exitCode : Nat
  stdout : String := ""
  stderr : String := ""
  file : Option OutputFile := none
  /-- What kept a schema from being generated. -/
  failure : Option Generate.Error := none

/-- What an outcome is in the end, given whether its file could be written. -/
def Outcome.finish (outcome : Outcome) (isWritten : Bool) : Outcome :=
  match outcome.file with
  | none => outcome
  | some file =>
    if isWritten then { outcome with stderr := outcome.stderr ++ file.note }
    else { outcome with exitCode := 1, file := none }

/-- A text as a stream shows it. -/
def shownOn (isTerminal : Bool) (text : String) : String :=
  if isTerminal then text else Text.plain text

/-- An outcome as its streams show it, given which of them is a terminal. -/
def Outcome.onStreams (outcome : Outcome) (isOutTerminal isErrTerminal : Bool) : Outcome :=
  { outcome with
    stdout := shownOn isOutTerminal outcome.stdout
    stderr := shownOn isErrTerminal outcome.stderr }

/-! ## Refusals -/

/-- How a command is used. -/
def Scope.usage : Scope → String
  | .program => "Usage: main [OPTIONS] COMMAND [ARGS]...\n"
  | .command name => "Usage: main " ++ name.text ++ " [OPTIONS]\n"

/-- Where to find help on a command. -/
def Scope.helpHint : Scope → String
  | .program => "Try 'main --help' for help.\n"
  | .command name => "Try 'main " ++ name.text ++ " --help' for help.\n"

/-- The spellings of an option in a message. -/
def OptionName.hint (option : OptionName) : String :=
  " / ".intercalate (option.spellings.map fun spelling => "'" ++ spelling ++ "'")

/-- The text of a problem with a value. -/
def ValueProblem.message : ValueProblem → String
  | .notFound path => "File " ++ Text.quote path ++ " does not exist."
  | .isDirectory path => "File " ++ Text.quote path ++ " is a directory."
  | .notAChoice value choices =>
    Text.quote value ++ " is not one of " ++ ", ".intercalate (choices.map Text.quote) ++ "."

/-- What someone may have meant, to be told behind a refusal. -/
def suggest : List String → String
  | [] => ""
  | [word] => " Did you mean " ++ Text.quote word ++ "?"
  | words => " (Did you mean one of: " ++ ", ".intercalate (words.map Text.quote) ++ "?)"

namespace Refusal

/-- What a refusal says. -/
def message : Refusal → String
  | .asksForHelp _ => ""
  | .missingCommand => "Missing command."
  | .noSuchCommand name =>
    "No such command " ++ Text.quote name ++ "."
      ++ suggest (Text.closeMatches name (CommandName.all.map CommandName.text))
  | .noSuchOption scope spelling =>
    "No such option " ++ Text.quote spelling ++ "."
      ++ suggest (Text.closeMatches spelling scope.longSpellings)
  | .needsValue spelling => "Option " ++ Text.quote spelling ++ " requires an argument."
  | .takesNoValue spelling => "Option " ++ Text.quote spelling ++ " does not take a value."
  | .missingOption _ option => "Missing option " ++ option.hint ++ "."
  | .invalidValue _ option problem => "Invalid value for " ++ option.hint ++ ": " ++ problem.message
  | .extraArguments _ arguments =>
    let noun := if arguments.length = 1 then "argument" else "arguments"
    "Got unexpected extra " ++ noun ++ " (" ++ " ".intercalate arguments ++ ")"

/-- Whose usage a refusal shows. A value that is missing or too much shows none. -/
def scope? : Refusal → Option Scope
  | .asksForHelp scope | .noSuchOption scope _ => some scope
  | .missingCommand | .noSuchCommand _ => some .program
  | .needsValue _ | .takesNoValue _ => none
  | .missingOption command _ | .invalidValue command _ _ | .extraArguments command _ =>
    some (.command command)

/-- The outcome of a refusal. -/
def outcome (refusal : Refusal) : Outcome :=
  let usage := (refusal.scope?.map Scope.usage).getD ""
  match refusal with
  | .asksForHelp _ => { exitCode := 0, stdout := usage }
  | _ =>
    let hint := (refusal.scope?.map fun scope => scope.helpHint ++ "\n").getD ""
    { exitCode := 2, stderr := usage ++ hint ++ "Error: " ++ refusal.message ++ "\n" }

end Refusal

/-! ## Jobs -/

/-- The name of the part of the program that a note comes from, in front of the note. -/
def note (origin text : String) : String := "DEBUG:gql_crudgen.core." ++ origin ++ ":" ++ text

/-- The note on the types of a datamodel. -/
def typesNote (database : Database) (types : List ModelType) : String :=
  note "parser" ("Parsed " ++ toString types.length ++ " types (" ++ database.name ++ "): "
    ++ ", ".intercalate (types.map (·.name)))

/-- The note on a schema. -/
def schemaNote (g : TypeGraph) (schema : Schema) (cache : Generate.Cache) : String :=
  note "generators.schema" ("Generated schema for " ++ toString g.models.length ++ " models with "
    ++ toString schema.typeCount ++ " named types (" ++ toString cache.entries.length
    ++ " cached by generators)")

/-- The form that the bindings of a language are filled into. -/
def formName : Client.Language → String
  | .typescript => "typescript.ts.j2"
  | .flow => "flow.js.j2"

/-- The note on the bindings of a client. -/
def sourceNote (language : Client.Language) (code : String) : String :=
  note "client_generator" ("Rendered " ++ formName language ++ " with "
    ++ toString (code.toList.count '\n') ++ " lines")

namespace Task

/-- The lines on a datamodel that a task shows. -/
def typeLines (task : Task) (types : List ModelType) : List String :=
  match task with
  | .schema =>
    ["  Types: " ++ toString types.length,
     "  Enums: " ++ toString (types.filter (·.isEnum)).length]
  | .client _ _ => []

/-- The text that a task makes out of a schema. -/
def code (task : Task) (schema : Schema) (types : List ModelType) : String :=
  match task with
  | .schema => schema.print ++ "\n"
  | .client language options => Client.source language schema types options

/-- The lines on its result that a task shows. -/
def codeLines (task : Task) (code : String) : List String :=
  match task with
  | .schema => []
  | .client language _ =>
    [sourceNote language code, "  Language: " ++ language.name,
     "  Lines: " ++ toString (Text.lineCount code)]

end Task

namespace Job

/-- Lines that only a verbose job shows. -/
def verbose (job : Job) (lines : List String) : String :=
  if job.isVerbose then String.join (lines.map (· ++ "\n")) else ""

/-- Writes the result to where it belongs; `shown` is what has been shown before. -/
def deliver (job : Job) (location : String → String) (code shown : String) : Outcome :=
  match job.output with
  | none => { exitCode := 0, stdout := code, stderr := shown }
  | some path =>
    let note := "Done! Wrote " ++ toString (Text.lineCount code) ++ " lines to " ++ location path ++ "\n"
    { exitCode := 0, stderr := shown, file := some { path, text := code, note } }

/-- Carries out a job on the text of its datamodel, where `location` gives the full path of a path. -/
def run (job : Job) (location : String → String) (text : String) : Outcome :=
  let start := job.verbose ["Datamodel: " ++ location job.datamodel]
  match Datamodel.parse job.database (Text.unifyLineEnds text.toList) with
  | .error e => { exitCode := 1, stderr := start ++ "Error: " ++ e.message ++ "\n" }
  | .ok types =>
    let parsed := start ++ job.verbose (typesNote job.database types :: job.task.typeLines types)
    let g := TypeGraph.ofTypes types
    match Generate.schemaRun g with
    | (.error e, _) => { exitCode := 1, stderr := parsed, failure := some e }
    | (.ok schema, cache) =>
      let code := job.task.code schema types
      job.deliver location code
        (parsed ++ job.verbose (schemaNote g schema cache :: job.task.codeLines code))

end Job

end OpenCrud.CommandLine
