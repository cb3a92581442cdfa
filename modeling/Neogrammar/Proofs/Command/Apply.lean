import Neogrammar.Command.Run
import Neogrammar.Proofs.Command.Scripts
import Neogrammar.Proofs.Files
import Neogrammar.Proofs.Request.Modes
import Neogrammar.Proofs.Request.Runs

/-!
# What applying a request may write

A run of `apply` comes to the execution of the request, or it ends before and has written nothing.
What an execution leaves is stored under one path only, and only where it was not a dry run, was not
rolled back and has made at least one change.
-/
namespace Neogrammar

/-! ## Requests without failures -/

namespace Request

variable {r : Request} {cfg : Config} {p : Project} {index : Nat} {changes : List Change}

end Request

namespace Script
open Request

variable {w : Surroundings} {settings : Option String} {o : ApplyOptions} {r : Request}
  {p : Project} {config : Config}

/-! ## Up to the execution -/

/-- The question whether to go on is settled, or answered by yes. -/
def Agreed (o : ApplyOptions) (answer : Option String) : Prop :=
  o.dryRun = true ∨ o.yes = true ∨ ∃ words, answer = some words ∧ isYes words = true

/-- What has to hold of a request that is executed on a project. -/
structure Passes (o : ApplyOptions) (answer : Option String) (r : Request) (p : Project) : Prop where
  /-- The name of the session is printed. -/
  session : r.sessionName.truthy = true → r.sessionName.isWritable = true
  valid : ∃ result, r.validate (some p) = .ok result ∧ result.errors = []
  agreed : Agreed o answer

/-- What has to hold for a run to come to the execution of a request on a project. -/
structure Reaches (w : Surroundings) (settings : Option String) (o : ApplyOptions) (r : Request)
    (p : Project) (config : Config) : Prop where
  request : RequestIn w.files o.file r
  project : ProjectIn w.files o.project o.create p
  settings : ∃ s, Settings.load w.files w.environment settings = .ok s ∧ s.config = config
  passes : Passes o w.answer r p

/-- Whether what an execution has left is stored. -/
def Keeps (o : ApplyOptions) (result : RunResult) : Prop :=
  o.dryRun = false ∧ result.rolledBack = false ∧ 0 < result.tally.success

instance (o : ApplyOptions) (result : RunResult) : Decidable (Keeps o result) :=
  inferInstanceAs (Decidable (_ ∧ _))

/-- A run that is asked to apply a request. -/
def ApplyOptions.invocation (o : ApplyOptions) (settings : Option String) : Invocation :=
  ⟨settings, some (.apply o.file o.project o.output o.create o.dryRun o.atomic o.yes)⟩

/-- A request that adds a language, and a new project, if the answer is yes. -/
def sowing : Surroundings :=
  ⟨⟨[("sow.yaml", "changes:\n- \x7boperation: add_language, name: Ayi\x7d\n")], []⟩, [], some "Yes"⟩

example : (match Invocation.ofWords ["apply", "sow.yaml", "--project", "isles.yaml", "--create"] with
    | .ok i =>
      let out := i.run sowing
      i.settings.isNone && (match out.ending with | .code n => n == 0 | _ => false) &&
        (sowing.files.changes out.files).map (·.1) == ["isles.yaml"]
    | .error _ => false) = true := by
  decide +kernel

end Script
end Neogrammar
