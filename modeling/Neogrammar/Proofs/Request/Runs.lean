import Neogrammar.Proofs.Outcome
import Neogrammar.Request.Run

/-!
# Runs change by change

A run that goes on after failures does each change in the project that the changes before it leave.
What a change does, and what is said of it, does not depend on its place in the request.
-/
namespace Neogrammar.Request

variable {cfg : Config} {p : Project} {index k : Nat} {c : Change} {changes : List Change}
  {o : Operation}

/-! ## One change -/

/-- The place of a change is only written down. -/
theorem runChange_index (p : Project) (cfg : Config) (index : Nat) (c : Change) :
    runChange p cfg index c = ((runChange p cfg 0 c).1, { (runChange p cfg 0 c).2 with index }) := by
  unfold runChange
  split
  · rfl
  · split <;> rfl

/-- A change whose operation is known leaves what applying it leaves. -/
theorem runChange_project (ho : Operation.ofName? c.operation = some o) :
    (runChange p cfg index c).1 = (apply p cfg o c).1 := by
  simp only [runChange, ho]
  rcases apply p cfg o c with ⟨q, _ | _⟩ <;> rfl

/-- A change succeeds if its operation is known and returns. -/
theorem runChange_success_iff :
    (runChange p cfg index c).2.success = true ↔
      ∃ o done, Operation.ofName? c.operation = some o ∧ (apply p cfg o c).2 = .ok done := by
  cases ho : Operation.ofName? c.operation with
  | none => simp [runChange, ho, failed]
  | some o =>
    simp only [runChange, ho, Option.some.injEq, exists_and_left, exists_eq_left']
    rcases apply p cfg o c with ⟨q, _ | _⟩ <;> simp [failed]

/-- The error of a change is that of its operation, if this is known. -/
theorem runChange_error (ho : Operation.ofName? c.operation = some o) {e : Error}
    (he : (apply p cfg o c).2 = .error e) :
    (runChange p cfg index c).2.error = some e.message := by
  simp only [runChange, ho]
  cases h : apply p cfg o c with
  | mk q result =>
    rw [h] at he
    dsimp only at he
    subst he
    rfl

/-! ## All changes -/

/-- The project that changes leave, the failed ones among them. -/
def projectAfter (cfg : Config) (p : Project) (changes : List Change) : Project :=
  (runAll cfg p 0 changes).1

theorem runAll_project (cfg : Config) (p : Project) (index : Nat) (changes : List Change) :
    (runAll cfg p index changes).1 = projectAfter cfg p changes := by
  unfold projectAfter
  generalize 0 = start
  induction changes generalizing p index start with
  | nil => rfl
  | cons c changes ih =>
    rw [runAll, runAll, runChange_index p cfg index, runChange_index p cfg start]
    exact ih _ _ _

@[simp] theorem projectAfter_nil : projectAfter cfg p [] = p := rfl

theorem projectAfter_cons :
    projectAfter cfg p (c :: changes) = projectAfter cfg (runChange p cfg 0 c).1 changes :=
  runAll_project cfg _ 1 changes

/-- One change more is done in the project that the others leave. -/
theorem projectAfter_concat :
    projectAfter cfg p (changes ++ [c]) = (runChange (projectAfter cfg p changes) cfg 0 c).1 := by
  induction changes generalizing p with
  | nil => rfl
  | cons first changes ih =>
    rw [List.cons_append, projectAfter_cons, projectAfter_cons]
    exact ih

/-- Each result is that of its change in the project that the changes before it leave. -/
theorem runAll_getElem? :
    (runAll cfg p index changes).2[k]? = changes[k]?.map fun c =>
      (runChange (projectAfter cfg p (changes.take k)) cfg (index + k) c).2 := by
  induction changes generalizing p index k with
  | nil => rfl
  | cons c changes ih =>
    cases k with
    | zero => rfl
    | succ k =>
      have first : (runChange p cfg index c).1 = (runChange p cfg 0 c).1 := by
        rw [runChange_index p cfg index c]
      have place : index + 1 + k = index + (k + 1) := by omega
      rw [List.take_succ_cons, projectAfter_cons, List.getElem?_cons_succ, ← place, ← first]
      exact ih

theorem runIn_changes (r : Request) (s : Session) (dryRun : Bool) :
    (r.run s dryRun false).2.changes = (runAll s.config s.project 0 r.changes).2 := rfl

end Neogrammar.Request
