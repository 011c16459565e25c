import OpenCrud.Compile
import OpenCrud.CommandLine.Outcome
import OpenCrud.Proofs.CommandLine.Job
import OpenCrud.Proofs.Generate.Printable
import OpenCrud.Proofs.Text.ControlSequence

/-!
# What a command line leads to

A command line that is read as a job has one of two ends, as long as a schema can be generated: the datamodel is
refused, which is all that is told, or what the job compiles to is delivered. Main result: files get the text that
a job compiles to as it is, and no file is written for a datamodel that is refused; streams show the same texts
exactly where they are terminals or the texts hold no control sequence (`run_of_jobOf`).
-/

namespace OpenCrud.CommandLine

open Text Generate

/-! ## Streams -/

section Streams

variable {isTerminal : Bool}

theorem shownOn_eq_self_iff {text : String} :
    shownOn isTerminal text = text ↔ isTerminal = true ∨ ¬HasSequence text.toList := by
  cases isTerminal with
  | true => exact iff_of_true rfl (Or.inl rfl)
  | false =>
    rw [← dropSequences_eq_self_iff, ← String.toList_inj]
    simp [shownOn, plain]

theorem shownOn_empty : shownOn isTerminal "" = "" :=
  shownOn_eq_self_iff.mpr (Or.inr (not_hasSequence (List.not_mem_nil)))

/-- What stands behind a whole line is shown on its own. -/
theorem shownOn_append_newline (line later : String) :
    shownOn isTerminal (line ++ "\n" ++ later) = shownOn isTerminal line ++ "\n" ++ shownOn isTerminal later := by
  cases isTerminal with
  | true => rfl
  | false =>
    refine String.toList_inj.mp ?_
    simp [shownOn, plain, dropSequences_append_newline]

theorem shownOn_line (line : String) : shownOn isTerminal (line ++ "\n") = shownOn isTerminal line ++ "\n" := by
  have happend : shownOn isTerminal (line ++ "\n" ++ "") = shownOn isTerminal line ++ "\n" ++ shownOn isTerminal "" :=
    shownOn_append_newline line ""
  simpa [shownOn_empty] using happend

theorem shownOn_append_of_not_mem {before : String} (h : escapeChar ∉ before.toList) (later : String) :
    shownOn isTerminal (before ++ later) = before ++ shownOn isTerminal later := by
  cases isTerminal with
  | true => rfl
  | false =>
    refine String.toList_inj.mp ?_
    simp [shownOn, plain, dropSequences_append_of_not_mem h]

/-- What stands behind the lines of a verbose job is shown on its own. -/
theorem shownOn_verbose_append (job : Job) (lines : List String) (later : String) :
    shownOn isTerminal (job.verbose lines ++ later) =
      shownOn isTerminal (job.verbose lines) ++ shownOn isTerminal later := by
  unfold Job.verbose
  split
  · -- Every line ends in a line feed, which no control sequence passes.
    induction lines with
    | nil => simp [shownOn_empty]
    | cons line lines ih =>
      rw [List.map_cons, String.join_cons, String.append_assoc, shownOn_append_newline, ih, shownOn_append_newline,
        ← String.append_assoc]
  · simp [shownOn_empty]

end Streams

/-! ## Ends -/

/-- The text that a job makes out of a source text, or what keeps it from it. -/
def Job.compile (job : Job) (source : String) : Except CompileError String :=
  match job.task with
  | .schema => (schemaText job.database source).map (· ++ "\n")
  | .client language options => clientText job.database language options source

/-- The source text of a file: its lines end as they do inside the program. -/
def sourceOf (text : String) : String := String.ofList (unifyLineEnds text.toList)

/-- What a verbose job shows before it reads its datamodel. -/
def Job.opening (job : Job) (location : String → String) : String :=
  job.verbose ["Datamodel: " ++ location job.datamodel]

/-- A job carried out as its streams show it, given whether its file can be written and which of the streams is a
terminal. -/
def Job.seen (job : Job) (location : String → String) (text : String) (isWritten isOut isErr : Bool) : Outcome :=
  ((job.run location text).finish isWritten).onStreams isOut isErr

/-- That an outcome is the one of a refused datamodel: an exit code, and the message behind what a verbose job has
shown before. -/
structure Rejects (before message : String) (outcome : Outcome) : Prop where
  exitCode : outcome.exitCode = 1
  stdout : outcome.stdout = ""
  stderr : outcome.stderr = before ++ "Error: " ++ message ++ "\n"
  file : outcome.file = none

/-- That an outcome delivers a text: to the output file, with nothing on the stream for output, or else to that
stream. -/
structure Delivers (output : Option String) (code : String) (outcome : Outcome) : Prop where
  exitCode : outcome.exitCode = 0
  stdout : outcome.stdout = output.elim code fun _ => ""
  file : outcome.file.map (fun file => (file.path, file.text)) = output.map fun path => (path, code)

/-- Both tasks compile to the text that they make out of the schema. -/
theorem compile_eq_bind (job : Job) (source : String) :
    job.compile source = (do
      let types ← compileTypes job.database source
      let s ← compileSchema types
      return job.task.code s types) := by
  unfold Job.compile
  cases job.task with
  | schema =>
    rw [schemaText]
    cases compileTypes job.database source with
    | error e => rfl
    | ok types =>
      rw [ok_bind, ok_bind]
      cases compileSchema types <;> rfl
  | client language options => rfl

theorem compile_of_error {job : Job} {source : String} {e : Datamodel.Error}
    (h : Datamodel.parse job.database source.toList = .error e) : job.compile source = .error (.datamodel e) := by
  rw [compile_eq_bind, compileTypes, h]
  rfl

theorem compile_eq_code {job : Job} {source : String} {types : List ModelType} {s : Schema}
    (htypes : Datamodel.parse job.database source.toList = .ok types) (hs : schema (.ofTypes types) = .ok s) :
    job.compile source = .ok (job.task.code s types) := by
  have hcompileTypes : compileTypes job.database source = .ok types := by
    rw [compileTypes, htypes]
    rfl
  -- A schema is kept from being printed by the names of enum values only, and these are never at fault.
  have hcompileSchema : compileSchema types = .ok s := by
    rw [compileSchema, printableSchema_of_parse htypes, hs]
    rfl
  rw [compile_eq_bind, hcompileTypes, ok_bind, hcompileSchema]
  rfl

section Ends

variable {job : Job} {location : String → String} {text : String} {isWritten isOut isErr : Bool}

theorem run_of_error {e : Datamodel.Error} (h : Datamodel.parse job.database (sourceOf text).toList = .error e) :
    job.run location text =
      { exitCode := 1, stderr := job.opening location ++ "Error: " ++ e.message ++ "\n" } := by
  rw [sourceOf, String.toList_ofList] at h
  unfold Job.run
  simp only [h]
  rfl

/-- Of a refused datamodel only the message is told, behind what has been shown before. -/
theorem seen_of_error {e : Datamodel.Error} (h : Datamodel.parse job.database (sourceOf text).toList = .error e) :
    job.seen location text isWritten isOut isErr =
      { exitCode := 1
        stderr := shownOn isErr (job.opening location) ++ "Error: " ++ shownOn isErr e.message ++ "\n" } := by
  have hlabel : escapeChar ∉ "Error: ".toList := by decide
  have hstderr : shownOn isErr (job.opening location ++ "Error: " ++ e.message ++ "\n") =
      shownOn isErr (job.opening location) ++ "Error: " ++ shownOn isErr e.message ++ "\n" := by
    rw [String.append_assoc, String.append_assoc, Job.opening, shownOn_verbose_append,
      shownOn_append_of_not_mem hlabel, shownOn_line, String.append_assoc, String.append_assoc]
  rw [Job.seen, run_of_error h]
  simp only [Outcome.finish, Outcome.onStreams, shownOn_empty, hstderr]

theorem rejects_seen_iff {e : Datamodel.Error} (h : Datamodel.parse job.database (sourceOf text).toList = .error e) :
    Rejects (shownOn isErr (job.opening location)) e.message (job.seen location text isWritten isOut isErr) ↔
      isErr = true ∨ ¬HasSequence e.message.toList := by
  rw [← shownOn_eq_self_iff, seen_of_error h]
  constructor
  · intro hrejects
    simpa using hrejects.stderr
  · intro hshown
    rw [hshown]
    exact ⟨rfl, rfl, rfl, rfl⟩

section Schema

variable {types : List ModelType} {s : Schema}
  (htypes : Datamodel.parse job.database (sourceOf text).toList = .ok types) (hs : schema (.ofTypes types) = .ok s)

include htypes hs

/-- What a verbose job shows does not change what it delivers. -/
theorem run_of_ok (location : String → String) :
    ∃ shown, job.run location text = job.deliver location (job.task.code s types) shown := by
  have hrun : schemaRun (.ofTypes types) = (.ok s, (schemaRun (.ofTypes types)).2) := by
    rw [← hs]
    rfl
  rw [sourceOf, String.toList_ofList] at htypes
  unfold Job.run
  simp only [htypes]
  rw [hrun]
  exact ⟨_, rfl⟩

/-- A text is delivered to a file as it is, and to a stream where that is a terminal or the text holds no control
sequence. -/
theorem delivers_seen_iff (hwritten : isWritten = true ∨ job.output = none) :
    Delivers job.output (job.task.code s types) (job.seen location text isWritten isOut isErr) ↔
      job.output ≠ none ∨ isOut = true ∨ ¬HasSequence (job.task.code s types).toList := by
  obtain ⟨shown, hrun⟩ := run_of_ok htypes hs location
  rw [Job.seen, hrun, Job.deliver]
  cases hout : job.output with
  | none =>
    -- The stream shows the text, so it is delivered where the stream shows it as it is.
    rw [← shownOn_eq_self_iff]
    constructor
    · intro hdelivers
      exact Or.inr hdelivers.stdout
    · intro hshown
      exact ⟨rfl, hshown.resolve_left (absurd rfl), rfl⟩
  | some path =>
    -- The stream shows nothing, and the file takes no part in what streams show.
    have hpath : job.output ≠ none := hout ▸ Option.some_ne_none path
    refine iff_of_true ?_ (Or.inl (Option.some_ne_none path))
    rw [hwritten.resolve_right hpath]
    exact ⟨rfl, shownOn_empty, rfl⟩

/-- Where the output file cannot be written, nothing is delivered at all. -/
theorem seen_of_not_written (houtput : job.output ≠ none) :
    (job.seen location text false isOut isErr).exitCode = 1 ∧
      (job.seen location text false isOut isErr).stdout = "" ∧
      (job.seen location text false isOut isErr).file = none := by
  obtain ⟨shown, hrun⟩ := run_of_ok htypes hs location
  obtain ⟨path, hpath⟩ := Option.ne_none_iff_exists'.mp houtput
  rw [Job.seen, hrun, Job.deliver, hpath]
  exact ⟨rfl, shownOn_empty, rfl⟩

end Schema

end Ends

/-! ## Main result -/

/--
What a command line leads to that is read as a job, for every text of its datamodel. The values are those of the
options. A refused datamodel is not compiled, no file is written for it, and all that is told is the message of the
error. Once there is a schema, what the job compiles to is delivered, unless its file cannot be written. A stream
that is no terminal shows a message or a text exactly where it holds no control sequence.
-/
theorem run_of_jobOf {status : String → PathStatus} {args : List String} {job : Job}
    (hjob : jobOf status args = .ok job) (location : String → String) (text : String)
    (isWritten isOut isErr : Bool) :
    (∃ call, Call.read args = .ok call ∧ Asks call job) ∧
    (∀ e, Datamodel.parse job.database (sourceOf text).toList = .error e →
      job.compile (sourceOf text) = .error (.datamodel e) ∧ (job.run location text).file = none ∧
      (job.seen location text isWritten isOut isErr).exitCode = 1 ∧
      (job.seen location text isWritten isOut isErr).stdout = "" ∧
      (Rejects (shownOn isErr (job.opening location)) e.message (job.seen location text isWritten isOut isErr) ↔
        isErr = true ∨ ¬HasSequence e.message.toList)) ∧
    (∀ types s, Datamodel.parse job.database (sourceOf text).toList = .ok types →
      schema (.ofTypes types) = .ok s →
      ∃ code, job.compile (sourceOf text) = .ok code ∧
        (isWritten = true ∨ job.output = none →
          (Delivers job.output code (job.seen location text isWritten isOut isErr) ↔
            job.output ≠ none ∨ isOut = true ∨ ¬HasSequence code.toList)) ∧
        (isWritten = false → job.output ≠ none →
          (job.seen location text isWritten isOut isErr).exitCode = 1 ∧
          (job.seen location text isWritten isOut isErr).stdout = "" ∧
          (job.seen location text isWritten isOut isErr).file = none)) := by
  refine ⟨exists_asks hjob, fun e he => ?_, fun types s htypes hs => ?_⟩
  · refine ⟨compile_of_error he, by rw [run_of_error he], ?_, ?_, rejects_seen_iff he⟩
    · rw [seen_of_error he]
    · rw [seen_of_error he]
  · refine ⟨_, compile_eq_code htypes hs, delivers_seen_iff htypes hs, ?_⟩
    rintro rfl houtput
    exact seen_of_not_written htypes hs houtput

/-- The bindings of a client in a file, as a command line asks for them. -/
def flowJob : Job where
  task := .client .flow { endpoint := some "url" }
  datamodel := "m.graphql"
  database := .relational
  output := some "client.js"
  isVerbose := true

/-- A datamodel with the line ends of another system. -/
def crlfSource : String := "type A \x7b\r\n a: Int\r\n\x7d"

theorem run_of_jobOf_flow :
    jobOf (fun _ => .file)
        ["client", "-vd", "m.graphql", "--lang=flow", "--endpoint", "url", "-oclient.js"] = .ok flowJob ∧
    ∃ code, flowJob.compile (sourceOf crlfSource) = .ok code ∧
      Delivers (some "client.js") code (flowJob.seen id crlfSource true false false) := by
  have hjob : jobOf (fun _ => .file)
      ["client", "-vd", "m.graphql", "--lang=flow", "--endpoint", "url", "-oclient.js"] = .ok flowJob := by
    decide +kernel
  obtain ⟨types, s, htypes, hs⟩ : ∃ types s,
      Datamodel.parse .relational (sourceOf crlfSource).toList = .ok types ∧ schema (.ofTypes types) = .ok s :=
    exists_schema_of_isOk (by decide +kernel)
  obtain ⟨_, _, hdelivers⟩ := run_of_jobOf hjob id crlfSource true false false
  obtain ⟨code, hcode, hiff, _⟩ := hdelivers types s htypes hs
  exact ⟨hjob, code, hcode, (hiff (Or.inl rfl)).mpr (Or.inl (Option.some_ne_none _))⟩

/-- The schema of a document database on the stream for output, as a command line asks for it. -/
def schemaJob : Job where
  task := .schema
  datamodel := "m.graphql"
  database := .document
  output := none
  isVerbose := false

/-- A datamodel whose type is described in red. -/
def redSource : String := "\"\\u001b[31mred\" type A @embedded { a: Int }"

theorem red_not_delivered :
    jobOf (fun _ => .file) ["schema", "--database", "document", "-d", "m.graphql"] = .ok schemaJob ∧
    ∃ types s code, Datamodel.parse .document (sourceOf redSource).toList = .ok types ∧
      schema (.ofTypes types) = .ok s ∧ schemaJob.compile (sourceOf redSource) = .ok code ∧
      ¬Delivers none code (schemaJob.seen id redSource true false false) := by
  obtain ⟨types, s, htypes, hs, hred⟩ : ∃ types s,
      Datamodel.parse .document (sourceOf redSource).toList = .ok types ∧ schema (.ofTypes types) = .ok s ∧
        [escapeChar, '[', '3', '1', 'm'] <:+: (s.print ++ "\n").toList :=
    exists_schema_of_any (by decide +kernel)
  have hjob : jobOf (fun _ => .file) ["schema", "--database", "document", "-d", "m.graphql"] = .ok schemaJob := by
    decide +kernel
  have hcode : schemaJob.compile (sourceOf redSource) = .ok (schemaJob.task.code s types) := compile_eq_code htypes hs
  have hiff : Delivers schemaJob.output (schemaJob.task.code s types) (schemaJob.seen id redSource true false false) ↔
      schemaJob.output ≠ none ∨ false = true ∨ ¬HasSequence (schemaJob.task.code s types).toList :=
    delivers_seen_iff htypes hs (Or.inl rfl)
  refine ⟨hjob, types, s, schemaJob.task.code s types, htypes, hs, hcode, fun hdelivers => ?_⟩
  have hsequence : IsSequence [escapeChar, '[', '3', '1', 'm'] :=
    ⟨['3', '1'], [], 'm', rfl, List.all_eq_true.mp rfl, List.forall_mem_nil _, rfl⟩
  rcases hiff.mp hdelivers with houtput | hterminal | hplain
  · exact houtput rfl
  · cases hterminal
  · exact hplain ⟨_, hsequence, hred⟩

end OpenCrud.CommandLine
