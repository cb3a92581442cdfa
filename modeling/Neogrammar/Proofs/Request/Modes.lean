import Neogrammar.Proofs.Project.Blocks
import Neogrammar.Request.Run

/-!
# The ways of running a request

An atomic run does what a run of all changes does, up to and with the first change that fails. Where
no block is open it then restores the project; within an open block it only reports that, and the
changes before the failure stay. A dry run has the results of the real one.
-/
namespace Neogrammar.Request

variable {cfg : Config} {p : Project} {index k : Nat} {changes : List Change} {r : Request}
  {s : Session}

/-! ## Up to the first failure -/

theorem runUntilFailure_eq_runAll
    (succeed : ∀ x ∈ (runAll cfg p index changes).2, x.success = true) :
    runUntilFailure cfg p index changes = runAll cfg p index changes := by
  induction changes generalizing p index with
  | nil => rfl
  | cons c rest ih =>
    rw [runAll] at succeed ⊢
    rw [runUntilFailure]
    cases h : runChange p cfg index c with
    | mk q result =>
      rw [h] at succeed
      have first : result.success = true := succeed result List.mem_cons_self
      have tail : runUntilFailure cfg q (index + 1) rest = runAll cfg q (index + 1) rest :=
        ih fun x hx => succeed x (List.mem_cons_of_mem _ hx)
      simp only [first, if_true, tail]

/-- The results of a run that stops are those of the full run up to and with the first failure. -/
theorem runUntilFailure_results {x : ChangeResult}
    (hx : (runAll cfg p index changes).2[k]? = some x) (fails : x.success = false)
    (before : ∀ j y, j < k → (runAll cfg p index changes).2[j]? = some y → y.success = true) :
    (runUntilFailure cfg p index changes).2 = (runAll cfg p index changes).2.take (k + 1) := by
  induction changes generalizing p index k with
  | nil => cases hx
  | cons c rest ih =>
    rw [runAll] at hx before ⊢
    rw [runUntilFailure]
    cases h : runChange p cfg index c with
    | mk q result =>
      rw [h] at hx before
      cases k with
      | zero =>
        obtain rfl : result = x := by simpa using hx
        simp [fails]
      | succ k =>
        have first : result.success = true := before 0 result (Nat.succ_pos k) rfl
        have tail : (runUntilFailure cfg q (index + 1) rest).2 =
            (runAll cfg q (index + 1) rest).2.take (k + 1) :=
          ih (by simpa using hx)
            fun j y hj hy => before (j + 1) y (Nat.succ_lt_succ hj) (by simpa using hy)
        simp only [first, if_true, tail, List.take_succ_cons]

/-- The results up to and with the first failure are successes and one failure. -/
theorem count_take {results : List ChangeResult} {x : ChangeResult} (hx : results[k]? = some x)
    (fails : x.success = false)
    (before : ∀ j y, j < k → results[j]? = some y → y.success = true) :
    (results.take (k + 1)).countP (·.success) = k ∧
      (results.take (k + 1)).countP (!·.success) = 1 ∧
      (results.take (k + 1)).any (!·.success) = true := by
  have short : k ≤ results.length := Nat.le_of_lt (List.getElem?_eq_some_iff.mp hx).1
  have succeed : ∀ y ∈ results.take k, y.success = true := by
    intro y hy
    obtain ⟨j, hj, rfl⟩ := List.mem_take_iff_getElem.mp hy
    exact before j _ (Nat.lt_of_lt_of_le hj (Nat.min_le_left _ _)) (List.getElem?_eq_getElem _)
  have none : ∀ y ∈ results.take k, ¬ (!y.success) = true := by
    intro y hy
    simp [succeed y hy]
  rw [List.take_add_one, hx, Option.toList_some, List.countP_append, List.countP_append,
    List.countP_eq_length.mpr succeed, List.countP_eq_zero.mpr none, List.length_take_of_le short]
  simp [fails]

/-! ## Atomic runs -/

/-- Where no block is open, an atomic run is kept or undone as a whole. -/
theorem runIn_atomic (hs : s.depth = 0) :
    r.runIn s true =
      let (p, results) := runUntilFailure s.config s.project 0 r.changes
      let rolledBack := results.any (!·.success)
      (⟨if rolledBack then s.project else p, s.config, 0, none⟩,
        ⟨tally r results, results, rolledBack⟩) := by
  simp only [runIn, if_true, Session.config_openBlock, Session.project_openBlock]
  split
  · rw [Session.abortBlock_outermost hs]
  · rw [Session.closeBlock_outermost hs]

/-- Within an open block, what an atomic run did stays, also where it reports that it was undone. -/
theorem runIn_atomic_inner (hs : 0 < s.depth) :
    r.runIn s true =
      let (p, results) := runUntilFailure s.config s.project 0 r.changes
      (s.withProject p, ⟨tally r results, results, results.any (!·.success)⟩) := by
  simp only [runIn, if_true, Session.config_openBlock, Session.project_openBlock,
    Session.abortBlock_inner hs, Session.closeBlock_inner hs, ite_self]

/-- A run that reports that it was undone has left the project as it was, if no block was open.
Within an open block, the changes before the failure stay; the session is as open as before. -/
theorem run_rolled_back (r : Request) (s : Session)
    (h : (r.run s false true).2.rolledBack = true) :
    (s.depth = 0 → (r.run s false true).1.project = s.project) ∧
      (0 < s.depth → (r.run s false true).1 =
        s.withProject (runUntilFailure s.config s.project 0 r.changes).1) := by
  constructor
  · intro hs
    simp only [run, runIn_atomic hs, Bool.false_eq_true, if_false] at h ⊢
    rw [h]
    rfl
  · intro hs
    simp only [run, runIn_atomic_inner hs, Bool.false_eq_true, if_false]

/-- A new part of speech, and then the removal of a language that is not there. -/
def halfDone : Request :=
  ⟨[⟨"add_pos", [("name", "noun"), ("abbr", "n")], none⟩,
    ⟨"remove_language", [("language", .int 0)], none⟩,
    ⟨"add_pos", [("name", "verb"), ("abbr", "v")], none⟩], .null, .null, .null⟩

theorem run_rolled_back_half :
    (halfDone.run (.ofProject .empty .default) false true).2.rolledBack = true ∧
      (halfDone.run (.ofProject .empty .default) false true).1.project = .empty :=
  ⟨by decide, (run_rolled_back halfDone (.ofProject .empty .default) (by decide)).1 rfl⟩

/-- Within an open block the new part of speech stays, although the run reports that it was
undone. -/
theorem run_not_rolled_back :
    (halfDone.run (Session.ofProject .empty .default).openBlock false true).2.rolledBack = true ∧
      (halfDone.run (Session.ofProject .empty .default).openBlock false true).1.project ≠
        (Session.ofProject .empty .default).openBlock.project := by
  refine ⟨by decide, fun same => ?_⟩
  have size := congrArg (·.partsOfSpeech.size) same
  revert size
  decide

/-! ## All modes -/

/-- A dry run leaves the session alone and has the results of the real run. If no change fails, an
atomic run does the same as one that goes on after failures. Else it has the results of that one up
to and with the first failure, counts the rest as skipped, and leaves the project as it was. -/
theorem run_modes (r : Request) (hs : s.depth = 0) :
    (∀ atomic, r.run s true atomic = (s, (r.run s false atomic).2)) ∧
      ((∀ x ∈ (r.run s false false).2.changes, x.success = true) →
        (r.run s false true).2 = (r.run s false false).2 ∧
          (r.run s false true).1.project = (r.run s false false).1.project ∧
          (r.run s false true).2.rolledBack = false) ∧
      ∀ k x, (r.run s false false).2.changes[k]? = some x → x.success = false →
        (∀ j y, j < k → (r.run s false false).2.changes[j]? = some y → y.success = true) →
        (r.run s false true).2.changes = (r.run s false false).2.changes.take (k + 1) ∧
          (r.run s false true).2.rolledBack = true ∧
          (r.run s false true).2.tally = ⟨r.changes.length, k, 1⟩ ∧
          (r.run s false true).2.tally.skipped = r.changes.length - k - 1 ∧
          (r.run s false true).1.project = s.project := by
  have plain : r.run s false false =
      (s.withProject (runAll s.config s.project 0 r.changes).1,
        ⟨tally r (runAll s.config s.project 0 r.changes).2,
          (runAll s.config s.project 0 r.changes).2, false⟩) := rfl
  have atomic : r.run s false true = r.runIn s true := rfl
  rw [plain, atomic, runIn_atomic hs]
  refine ⟨fun _ => rfl, ?_, ?_⟩
  · intro succeed
    have none : (runAll s.config s.project 0 r.changes).2.any (!·.success) = false := by
      simpa using succeed
    rw [runUntilFailure_eq_runAll succeed]
    dsimp only
    rw [none]
    exact ⟨rfl, rfl, rfl⟩
  · intro k x hx fails before
    have results := runUntilFailure_results hx fails before
    obtain ⟨successes, failures, failed⟩ := count_take hx fails before
    have counts : tally r ((runAll s.config s.project 0 r.changes).2.take (k + 1)) =
        ⟨r.changes.length, k, 1⟩ := by
      rw [tally, successes, failures]
      rfl
    dsimp only
    rw [results, failed, counts]
    exact ⟨rfl, rfl, rfl, rfl, rfl⟩

theorem run_modes_half :
    (Session.ofProject .empty .default).depth = 0 ∧
      (∃ x y, (halfDone.run (.ofProject .empty .default) false false).2.changes[0]? = some x ∧
        (halfDone.run (.ofProject .empty .default) false false).2.changes[1]? = some y ∧
        x.success = true ∧ y.success = false) ∧
      halfDone.run (.ofProject .empty .default) true true =
        (.ofProject .empty .default, (halfDone.run (.ofProject .empty .default) false true).2) ∧
      (halfDone.run (.ofProject .empty .default) false true).2.tally = ⟨3, 1, 1⟩ ∧
      (halfDone.run (.ofProject .empty .default) false true).2.tally.skipped = 1 ∧
      (halfDone.run (.ofProject .empty .default) false true).1.project = .empty := by
  obtain ⟨dry, -, stops⟩ := run_modes (s := .ofProject .empty .default) halfDone rfl
  obtain ⟨-, -, counts, skipped, project⟩ := stops 1 _ rfl rfl fun j y hj hy => by
    obtain rfl : j = 0 := by omega
    cases hy
    rfl
  exact ⟨rfl, ⟨_, _, rfl, rfl, rfl, rfl⟩, dry true, counts, skipped, project⟩

end Neogrammar.Request
