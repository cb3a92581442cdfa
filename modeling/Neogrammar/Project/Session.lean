import Neogrammar.Project.Basic

/-!
# Editing sessions

A session is a project under edit with its configuration. Edits can be grouped in blocks, which may
be nested: an error that leaves the outermost block restores the project as it was on entering it.
-/
namespace Neogrammar

/-- `depth` counts the open blocks; `snapshot` is the project at the start of the outermost one. -/
structure Session where
  project : Project
  config : Config
  depth : Nat
  snapshot : Option Project
  deriving Repr

namespace Session

/-- A session with no open block. -/
def ofProject (project : Project) (config : Config) : Session := ⟨project, config, 0, none⟩

def withProject (s : Session) (project : Project) : Session := { s with project }

/-- Open a block. -/
def openBlock (s : Session) : Session :=
  if s.depth = 0 then { s with depth := 1, snapshot := some s.project }
  else { s with depth := s.depth + 1 }

/-- Close the innermost block and keep its edits. -/
def closeBlock (s : Session) : Session :=
  if s.depth = 1 then { s with depth := 0, snapshot := none } else { s with depth := s.depth - 1 }

/-- Leave the innermost block by an error; only the outermost block undoes its edits. -/
def abortBlock (s : Session) : Session :=
  match s.depth, s.snapshot with
  | 1, some project => { s with project, depth := 0, snapshot := none }
  | _, _ => { s with depth := s.depth - 1 }

@[simp] theorem project_openBlock (s : Session) : s.openBlock.project = s.project := by
  unfold openBlock; split <;> rfl

@[simp] theorem project_closeBlock (s : Session) : s.closeBlock.project = s.project := by
  unfold closeBlock; split <;> rfl

@[simp] theorem config_openBlock (s : Session) : s.openBlock.config = s.config := by
  unfold openBlock; split <;> rfl

end Session
end Neogrammar
