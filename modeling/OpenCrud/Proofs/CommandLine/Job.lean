import OpenCrud.CommandLine.Job
import OpenCrud.Proofs.Computation

/-!
# The job of a command line

A command line that can be carried out asks for a job: every value of the job is the one of an option, or the
standard where the option is not given (`exists_asks`).
-/

namespace OpenCrud.CommandLine

/-- The job of a command line, given what paths lead to. -/
def jobOf (status : String → PathStatus) (args : List String) : Except Refusal Job := do
  (← Call.read args).job status

/-- That a job is what a call gives, with the values that count where a call gives none. -/
structure Asks (call : Call) (job : Job) : Prop where
  datamodel : call.value? .datamodel = some job.datamodel
  database : (call.value? .database).elim (some .relational) Database.ofName? = some job.database
  output : job.output = call.value? .output
  isVerbose : job.isVerbose = call.has .verbose
  schema : call.command = .schema → job.task = .schema
  client : call.command = .client → ∃ language,
    (call.value? .lang).elim (some .typescript) Client.Language.ofName? = some language ∧
      job.task = .client language { endpoint := call.value? .endpoint, secret := call.value? .secret }

variable {status : String → PathStatus} {call : Call}

theorem value?_of_datamodel {path : String} (h : call.datamodel status = .ok path) :
    call.value? .datamodel = some path := by
  unfold Call.datamodel at h
  split at h
  · cases h
  · rename_i given hgiven
    rw [hgiven]
    split at h
    · cases h
    · cases h
    · cases h
      rfl

theorem value?_of_output {output : Option String} (h : call.output status = .ok output) :
    output = call.value? .output := by
  unfold Call.output at h
  split at h
  · rename_i hgiven
    cases h
    exact hgiven.symm
  · rename_i hgiven
    obtain ⟨_, h⟩ := ite_error_eq_ok_iff.mp h
    cases h
    exact hgiven.symm

/-- A database is chosen by its name, or else the standard is. -/
theorem toOption_database :
    call.database.toOption = (call.value? .database).elim (some .relational) Database.ofName? := by
  unfold Call.database
  cases call.value? .database with
  | none => rfl
  | some name =>
    dsimp only [Option.elim_some]
    cases Database.ofName? name <;> rfl

/-- A language is chosen by its name, or else the standard is. -/
theorem toOption_language :
    call.language.toOption = (call.value? .lang).elim (some .typescript) Client.Language.ofName? := by
  unfold Call.language
  cases call.value? .lang with
  | none => rfl
  | some name =>
    dsimp only [Option.elim_some]
    cases Client.Language.ofName? name <;> rfl

theorem asks_of_job {job : Job} (h : call.job status = .ok job) : Asks call job := by
  simp only [Call.job, throw_bind, ite_error_eq_ok_iff, bind_eq_ok_iff] at h
  -- The checks of help, options and other arguments come first and give no values.
  obtain ⟨_, _, _, _, task, htask, path, hpath, database, hdatabase, output, houtput, ⟨⟩⟩ := h
  refine ⟨value?_of_datamodel hpath, ?_, value?_of_output houtput, rfl, ?_, ?_⟩
  · rw [← toOption_database, hdatabase]
    rfl
  · intro hcommand
    rw [Call.task, hcommand] at htask
    cases htask
    rfl
  · intro hcommand
    rw [Call.task, hcommand] at htask
    obtain ⟨language, hlanguage, htask⟩ := bind_eq_ok_iff.mp htask
    cases htask
    refine ⟨language, ?_, rfl⟩
    rw [← toOption_language, hlanguage]
    rfl

theorem exists_asks {args : List String} {job : Job} (h : jobOf status args = .ok job) :
    ∃ call, Call.read args = .ok call ∧ Asks call job := by
  obtain ⟨call, hread, hjob⟩ := bind_eq_ok_iff.mp h
  exact ⟨call, hread, asks_of_job hjob⟩

end OpenCrud.CommandLine
