import Neogrammar.Proofs.Request.Changes
import Neogrammar.Proofs.Request.Complaints
import Neogrammar.Proofs.Request.InPlace
import Neogrammar.Proofs.Request.Modes
import Neogrammar.Proofs.Text.Written

/-!
# Failed changes

With derivations in transactions, a change that fails leaves the project as it was, unless it was
made and only its report failed, on a number with too many digits to be written. So a run comes to
the same if the changes that fail in it are left out.
-/
namespace Neogrammar

/-- A word that was added is there. -/
theorem Project.word_added {p q : Project} {c : Config} {lang : Int} {word : Word} {i : Nat}
    (h : p.addWord c lang word = .ok (i, q)) : ∃ w, q.word lang (.nat i) = .ok w := by
  obtain ⟨l, hl, h⟩ := bind_eq_ok_iff.mp h
  obtain ⟨⟨j, m⟩, hm, h⟩ := bind_eq_ok_iff.mp h
  cases h
  obtain ⟨ps, -, hm⟩ := bind_eq_ok_iff.mp hm
  obtain ⟨w, -, hm⟩ := bind_eq_ok_iff.mp hm
  cases hm
  refine ⟨w, bind_eq_ok_iff.mpr ⟨_, Project.language_withLanguage_same hl, ?_⟩⟩
  exact Slots.get_int_eq_ok_iff.mpr ⟨Int.natCast_nonneg _, Slots.find?_push_size _ _⟩

namespace Request

variable {cfg : Config} {p q : Project} {c : Change} {o : Operation} {changes : List Change}

/-! ## Reports that fail -/

/-- The operations whose reports show a value that was given, or computed from one. -/
def Operation.showsValue : Operation → Bool
  | .addLanguage | .renameLanguage | .addPos | .addWord | .alterWord => true
  | _ => false

/-- A report that shows a value first fails there only on a number that cannot be written. -/
theorem failsOnly_shown {d : Datum} {f : String → Except Error Done}
    (h : ∀ shown, FailsOnly (· = .number .unwritable) (f shown)) :
    FailsOnly (· = .number .unwritable) (d.written >>= f) :=
  .bind (fun _ he => (Datum.written_eq_error_iff.mp he).2) fun shown _ => h shown

/-- A report fails on a number that cannot be written. -/
theorem report_failed {e : Error} (made : Made cfg p c o q (.error e)) :
    o = .derive ∨ o = .morph ∨ o.showsValue = true ∧ e = .number .unwritable := by
  generalize hr : (.error e : Except Error Done) = report at made
  have shown (h : FailsOnly (· = .number .unwritable) report) : e = .number .unwritable :=
    h e hr.symm
  cases made with
  | addLanguage => exact .inr (.inr ⟨rfl, shown (failsOnly_shown fun _ => .ok _)⟩)
  | renameLanguage => exact .inr (.inr ⟨rfl, shown (failsOnly_shown fun _ => .ok _)⟩)
  | addPos => exact .inr (.inr ⟨rfl, shown (failsOnly_shown fun _ => .ok _)⟩)
  | addWord _ _ h =>
    obtain ⟨w, hw⟩ := Project.word_added h
    rw [addedWord, hw, ok_bind] at shown
    exact .inr (.inr ⟨rfl, shown (failsOnly_shown fun _ => failsOnly_shown fun _ => .ok _)⟩)
  | alterWord => exact .inr (.inr ⟨rfl, shown (failsOnly_shown fun _ => .ok _)⟩)
  | derive => exact .inl rfl
  | morph => exact .inr (.inl rfl)
  | _ => cases hr

/-- A change that was made fails only by its report. -/
theorem made_failed {e : Error} (hc : cfg.transactional = true) (notMorph : o ≠ .morph)
    (made : Made cfg p c o q (.error e)) :
    q = p ∨ o.showsValue = true ∧ e = .number .unwritable := by
  rcases report_failed made with rfl | morphs | shown
  · generalize hr : (.error e : Except Error Done) = report at made
    cases made
    exact .inl (Project.derive_failed_same hc (map_eq_error_iff.mp hr.symm))
  · exact absurd morphs notMorph
  · exact .inr shown

/-- A result that does not report a number that cannot be written, where there is a value to
show. -/
def ChangeResult.Written (x : ChangeResult) : Prop :=
  ∀ o, Operation.ofName? x.operation = some o → o.showsValue = true →
    x.error ≠ some NumberError.unwritable.message

/-- A change that fails leaves no trace. -/
theorem runChange_failed {index : Nat} (hc : cfg.transactional = true)
    (notMorph : Operation.ofName? c.operation ≠ some .morph)
    (written : (runChange p cfg index c).2.Written)
    (fails : (runChange p cfg index c).2.success = false) : (runChange p cfg index c).1 = p := by
  cases ho : Operation.ofName? c.operation with
  | none => simp only [runChange, ho]
  | some o =>
    rw [runChange_project ho]
    rcases apply_cases p cfg o c with ⟨e, he⟩ | made
    · rw [he]
    cases hr : (apply p cfg o c).2 with
    | ok done =>
      rw [runChange_success_iff.mpr ⟨o, done, ho, hr⟩] at fails
      cases fails
    | error e =>
      rw [hr] at made
      rcases made_failed hc (fun h => notMorph (h ▸ ho)) made with same | ⟨shows, rfl⟩
      · exact same
      · have named : (runChange p cfg index c).2.operation = c.operation := by
          simp only [runChange, ho]
          rcases apply p cfg o c with ⟨q, _ | _⟩ <;> rfl
        exact absurd (runChange_error ho hr) (written o (named ▸ ho) shows)

/-! ## Runs without what fails -/

/-- The changes whose results are successes, in order. -/
def succeeding (changes : List Change) (results : List ChangeResult) : List Change :=
  ((changes.zip results).filter (·.2.success)).map (·.1)

theorem succeeding_cons (x : ChangeResult) (results : List ChangeResult) :
    succeeding (c :: changes) (x :: results) =
      if x.success then c :: succeeding changes results else succeeding changes results := by
  simp only [succeeding, List.zip_cons_cons, List.filter_cons]
  split <;> rfl

/-- What a change reports. -/
def ChangeResult.report (x : ChangeResult) : String × Datum × Option Nat :=
  (x.message, x.target, x.created)

/-- Leaving out the changes that fail, all others succeed with the same reports, and the project is
the same in the end. -/
theorem runAll_succeeding (hc : cfg.transactional = true) {index : Nat} (start : Nat)
    (notMorph : ∀ c ∈ changes, Operation.ofName? c.operation ≠ some .morph)
    (written : ∀ x ∈ (runAll cfg p index changes).2, x.Written) :
    let all := runAll cfg p index changes
    let again := runAll cfg p start (succeeding changes all.2)
    again.1 = all.1 ∧ (∀ x ∈ again.2, x.success = true) ∧
      again.2.map ChangeResult.report = (all.2.filter (·.success)).map ChangeResult.report := by
  induction changes generalizing p index start with
  | nil => exact ⟨rfl, by simp [runAll, succeeding], rfl⟩
  | cons c changes ih =>
    rw [List.forall_mem_cons] at notMorph
    rw [runAll] at written ⊢
    dsimp only at written ⊢
    rw [List.forall_mem_cons] at written
    rw [succeeding_cons]
    cases h : (runChange p cfg index c).2.success with
    | true =>
      -- the first change does the same in the run without failures
      have first : runChange p cfg start c =
          ((runChange p cfg index c).1, { (runChange p cfg index c).2 with index := start }) := by
        rw [runChange_index p cfg start, runChange_index p cfg index]
      obtain ⟨project, succeed, reports⟩ := ih (start + 1) notMorph.2 written.2
      simp only [if_true, runAll, first, List.filter_cons, h, List.map_cons]
      refine ⟨project, ?_, ?_⟩
      · rw [List.forall_mem_cons]
        exact ⟨rfl, succeed⟩
      · rw [reports]
        rfl
    | false =>
      have same : (runChange p cfg index c).1 = p := runChange_failed hc notMorph.1 written.1 h
      rw [same] at written ⊢
      simp only [Bool.false_eq_true, if_false, List.filter_cons, h]
      exact ih start notMorph.2 written.2

/-- Each change, carried out in place, comes to what applying it says. With derivations in
transactions and no computation of all forms, a run comes to the same as one of the changes that
succeed in it: there all of them succeed, with the same reports. The exception are changes that are
made although their reports fail, on a number that cannot be written. -/
theorem run_succeeding {s : Session} (request : Request) (hc : s.config.transactional = true)
    (notMorph : ∀ c ∈ request.changes, Operation.ofName? c.operation ≠ some .morph)
    (written : ∀ x ∈ (request.run s false false).2.changes, x.Written) :
    let all := request.run s false false
    let again := { request with
      changes := succeeding request.changes all.2.changes }.run s false false
    (∀ p o c, (perform s.config c o).after p = apply p s.config o c) ∧ again.1 = all.1 ∧
      (∀ x ∈ again.2.changes, x.success = true) ∧
      again.2.changes.map ChangeResult.report =
        (all.2.changes.filter (·.success)).map ChangeResult.report := by
  obtain ⟨project, succeed, reports⟩ :=
    runAll_succeeding hc 0 notMorph written
  exact ⟨fun p o c => after_perform s.config c o p, congrArg s.withProject project, succeed, reports⟩

theorem run_succeeding_half :
    (∀ c ∈ halfDone.changes, Operation.ofName? c.operation ≠ some .morph) ∧
      (∀ x ∈ (halfDone.run (.ofProject .empty .default) false false).2.changes, x.Written) ∧
      (halfDone.run (.ofProject .empty .default) false false).2.changes.map (·.success) =
        [true, false, true] ∧
      let all := halfDone.run (.ofProject .empty .default) false false
      let again := { halfDone with
        changes := succeeding halfDone.changes all.2.changes }.run (.ofProject .empty .default)
          false false
      again.1 = all.1 ∧ (∀ x ∈ again.2.changes, x.success = true) ∧
        again.2.changes.map ChangeResult.report =
          (all.2.changes.filter (·.success)).map ChangeResult.report := by
  have notMorph : ∀ c ∈ halfDone.changes, Operation.ofName? c.operation ≠ some .morph := by decide
  have written : ∀ x ∈ (halfDone.run (.ofProject .empty .default) false false).2.changes,
      x.Written := by
    have harmless : ∀ x ∈ (halfDone.run (.ofProject .empty .default) false false).2.changes,
        x.error = none ∨ Operation.ofName? x.operation = some .removeLanguage := by decide
    intro x hx o ho shows
    rcases harmless x hx with none | removes
    · simp [none]
    · cases ho.symm.trans removes
      cases shows
  exact ⟨notMorph, written, rfl,
    (run_succeeding (s := .ofProject .empty .default) halfDone rfl notMorph written).2⟩

/-- Add a part of speech with a given abbreviation. -/
def nounAs (abbr : Datum) : Change := ⟨"add_pos", [("name", "noun"), ("abbr", abbr)], some 2⟩

/-- Remove the first part of speech. -/
def firstRemoved : Change := ⟨"remove_pos", [("index", .int 0)], some 3⟩

/-- If the abbreviation cannot be written, the part of speech is there though the change fails, and
can be removed. -/
theorem runAll_unwritten {abbr : Datum} (h : abbr.isWritable = false) :
    runAll .default .empty 0 [nounAs abbr, firstRemoved] =
      (⟨.empty, ⟨[none]⟩⟩,
        [failed 0 (nounAs abbr) ("Error: " ++ NumberError.unwritable.message)
            NumberError.unwritable.message,
          ⟨1, "remove_pos", true, "Removed part of speech 0", "0", none, none, some 3⟩]) := by
  have unwritten : abbr.written = .error (.number .unwritable) := by simp [Datum.written, h]
  have report : addedPos abbr 0 = .error (.number .unwritable) := by simp [addedPos, unwritten]
  have added : apply .empty .default .addPos (nounAs abbr) =
      ((Project.empty.addPos "noun" abbr).2, addedPos abbr 0) := rfl
  have known : Operation.ofName? (nounAs abbr).operation = some .addPos := rfl
  have first : runChange .empty .default 0 (nounAs abbr) =
      ((Project.empty.addPos "noun" abbr).2, failed 0 (nounAs abbr)
        ("Error: " ++ NumberError.unwritable.message) NumberError.unwritable.message) := by
    simp only [runChange, known, added, report]
    rfl
  rw [runAll, first]
  rfl

/-- A request whose first change fails, and whose second one removes what the first one added. -/
def addedAndRemoved (abbr : Datum) : Request := ⟨[nounAs abbr, firstRemoved], .null, .null, .null⟩

/-- Without the change that fails, there is no part of speech to remove. -/
theorem run_unwritten {abbr : Datum} (h : abbr.isWritable = false) :
    let all := (addedAndRemoved abbr).run (.ofProject .empty .default) false false
    let again := { addedAndRemoved abbr with
      changes := succeeding (addedAndRemoved abbr).changes all.2.changes }.run
        (.ofProject .empty .default) false false
    (∀ c ∈ (addedAndRemoved abbr).changes, Operation.ofName? c.operation ≠ some .morph) ∧
      all.2.changes.map (·.success) = [false, true] ∧ again.2.changes.map (·.success) = [false] ∧
      all.1.project.partsOfSpeech.size = 1 ∧ again.1.project.partsOfSpeech.size = 0 := by
  have all : runAll .default .empty 0 (addedAndRemoved abbr).changes = _ := runAll_unwritten h
  have left : succeeding (addedAndRemoved abbr).changes
      (runAll .default .empty 0 (addedAndRemoved abbr).changes).2 = [firstRemoved] := by
    rw [all]
    rfl
  have again : runAll .default .empty 0 (succeeding (addedAndRemoved abbr).changes
      (runAll .default .empty 0 (addedAndRemoved abbr).changes).2) =
        (.empty, [failed 0 firstRemoved "Error: Index out of range: 0 (length 0)"
          "Index out of range: 0 (length 0)"]) := by
    rw [left]
    rfl
  have notMorph : ∀ c ∈ (addedAndRemoved abbr).changes,
      Operation.ofName? c.operation ≠ some .morph := by
    intro c hc
    simp only [addedAndRemoved, List.mem_cons, List.not_mem_nil, or_false] at hc
    rcases hc with rfl | rfl <;> nofun
  refine ⟨notMorph, congrArg (fun run => run.2.map (·.success)) all,
    congrArg (fun run => run.2.map (·.success)) again,
    congrArg (fun run => run.1.partsOfSpeech.size) all,
    congrArg (fun run => run.1.partsOfSpeech.size) again⟩

/-- A number of 4335 digits. -/
@[irreducible] def vast : Datum := .int (Nat.pow 16 3600)

theorem isWritable_vast : vast.isWritable = false := by
  rw [vast, Datum.isWritable]
  exact Text.isWritable_eq_false (by decide +kernel)

/-- The change that fails is made, and leaves its trace. -/
theorem run_succeeding_vast :
    let all := (addedAndRemoved vast).run (.ofProject .empty .default) false false
    let again := { addedAndRemoved vast with
      changes := succeeding (addedAndRemoved vast).changes all.2.changes }.run
        (.ofProject .empty .default) false false
    (∀ c ∈ (addedAndRemoved vast).changes, Operation.ofName? c.operation ≠ some .morph) ∧
      all.2.changes.map (·.success) = [false, true] ∧ again.2.changes.map (·.success) = [false] ∧
      all.1.project.partsOfSpeech.size = 1 ∧ again.1.project.partsOfSpeech.size = 0 :=
  run_unwritten isWritable_vast

end Request
end Neogrammar
