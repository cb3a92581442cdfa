import Neogrammar.Proofs.Project.Report
import Neogrammar.Proofs.SoundChange.Refused

/-!
# Checks of loaded projects

A project that was read from plain data holds sound changes of texts, which nobody compiled, over
categories of whatever came. Its check returns a report on all of them, or it ends with the error of
one: a grapheme that is no text, a pattern that is refused for no fault of its own, or one that is
accepted without the group after.
-/
namespace Neogrammar.Project

variable {p : Project} {i j : Nat} {l : Language} {s : SoundChange} {e : Error}
  {report : List Finding}

/-- A stored sound change does not compile exactly if there is a finding about it. -/
theorem broken_at_iff (h : p.check = .ok report) (live : p.languages.find? i = some l)
    (stored : l.soundChanges.rules[j]? = some s) : ¬l.soundChanges.Accepts s ↔
      ∃ f ∈ report, f.rule = .brokenSoundChange ∧ f.entity = .soundChange i j := by
  refine Iff.trans ?_ (exists_finding_iff h
    (P := fun d => d.1 = .brokenSoundChange ∧ d.2.1 = .soundChange i j)).symm
  constructor
  · intro refused
    exact ⟨_, .soundChange live stored refused, rfl, rfl⟩
  · rintro ⟨d, defect, rule, entity⟩
    cases defect with
    | soundChange live' stored' refused =>
      cases entity
      cases live.symm.trans live'
      cases stored.symm.trans stored'
      exact refused
    | _ => cases rule

/-- An error that ends the check of a project with sound changes of texts. -/
inductive Escape (p : Project) : Error → Prop
  /-- A number of a finding is past the digit limit. -/
  | unwritable (h : ¬p.Presentable) : Escape p (.number .unwritable)
  /-- A stored sound change is refused with an error that is none of editing. -/
  | soundChange {i : Nat} {l : Language} {s : SoundChange} {e : Error}
      (live : p.languages.find? i = some l) (stored : s ∈ l.soundChanges.rules)
      (failed : l.soundChanges.compile s .default = .error e)
      (refused : s.Refused l.soundChanges.categories e) (other : e.isEditing = false) : Escape p e

/-- A sound change of texts can be written, and so is compiled right away. -/
theorem recompile_eq {c : SoundChanges} (hs : s.Storable) :
    c.recompile s = c.compile s .default := by
  obtain ⟨target, htarget⟩ := Datum.isText_iff.mp hs.target
  obtain ⟨replacement, hreplacement⟩ := Datum.isText_iff.mp hs.replacement
  rw [SoundChanges.recompile, htarget, hreplacement]
  rfl

theorem stops_iff_escape
    (texts : ∀ i l, p.languages.find? i = some l → ∀ s ∈ l.soundChanges.rules, s.Storable) :
    p.Stops e ↔ p.Escape e := by
  constructor
  · intro stops
    cases stops with
    | unwritable unpresentable => exact .unwritable unpresentable
    | soundChange live stored failed other =>
      have storable := texts _ _ live _ stored
      rw [recompile_eq storable] at failed
      exact .soundChange live stored failed (SoundChange.refused_compile storable _ _ failed) other
  · intro escape
    cases escape with
    | unwritable unpresentable => exact .unwritable unpresentable
    | soundChange live stored failed _ other =>
      rw [← recompile_eq (texts _ _ live _ stored)] at failed
      exact .soundChange live stored failed other

/-- The check of a project read from plain data returns unless one of the errors listed ends it, and
then lists all defects, the sound changes that do not compile among them. -/
theorem check_loaded {d : Datum} (loaded : ofData d = .ok p) :
    ((∃ report, p.check = .ok report) ↔ ∀ e, ¬p.Escape e) ∧
      (∀ e, p.check = .error e → p.Escape e) ∧
      ∀ report, p.check = .ok report → report.map Finding.defect = p.defects ∧
        ∀ i l j s, p.languages.find? i = some l → l.soundChanges.rules[j]? = some s →
          (¬l.soundChanges.Accepts s ↔
            ∃ f ∈ report, f.rule = .brokenSoundChange ∧ f.entity = .soundChange i j) := by
  have texts : ∀ i l, p.languages.find? i = some l → ∀ s ∈ l.soundChanges.rules, s.Storable :=
    fun i l live => ((storable_of_ofData loaded).languages.of_find? live).soundChanges.rules
  refine ⟨?_, fun e h => (stops_iff_escape texts).mp (p.stops_check e h), fun report h =>
    ⟨defects_check h, fun i l j s live stored => broken_at_iff h live stored⟩⟩
  rw [check_returns_iff]
  exact forall_congr' fun e => not_congr (stops_iff_escape texts)

/-- A language with one category and with sound changes to the text "x". -/
def single (category : Datum) (changes : List (String × String)) : Datum :=
  .record [("pos", .list []), ("languages", .list [.record [("name", "Ayi"),
    ("sound_changes", .record [("categories", .record [("V", category)]),
      ("rules", .list (changes.map fun (target, environment) => .record [("target", .text target),
        ("replacement", "x"), ("environment", .text environment)]))])]])]

/-- Two sound changes do not compile: an environment is without a marker, a bracket is left open. -/
theorem check_loaded_single :
    ∃ p report, ofData (single (.list ["a", "e"]) [("V", "k"), ("V", "_k"), ("(", "_")]) = .ok p ∧
      p.check = .ok report ∧ (∀ e, ¬p.Escape e) ∧
      report.map (fun f => (f.rule, f.entity)) =
        [(.brokenSoundChange, .soundChange 0 0), (.brokenSoundChange, .soundChange 0 2)] := by
  have found : (ofData (single (.list ["a", "e"]) [("V", "k"), ("V", "_k"), ("(", "_")])).toOption.bind
      (fun p => p.check.toOption.map fun report => report.map fun f => (f.rule, f.entity)) =
      some [(.brokenSoundChange, .soundChange 0 0), (.brokenSoundChange, .soundChange 0 2)] := by
    decide +kernel
  obtain ⟨p, loaded, found⟩ := Option.bind_eq_some_iff.mp found
  obtain ⟨report, returned, found⟩ := Option.map_eq_some_iff.mp found
  rw [toOption_eq_some_iff] at loaded returned
  exact ⟨p, report, loaded, returned, (check_loaded loaded).1.mp ⟨report, returned⟩, found⟩

/-- A grapheme that is no text ends the check, and so does a bracket that takes in the name of the
group after: no report comes of either. -/
theorem check_single_escapes :
    (∃ p, ofData (single (.list [.int 1]) [("V", "_")]) = .ok p ∧
        ¬∃ report, p.check = .ok report) ∧
      ∃ p, ofData (single (.list ["a"]) [("[", "_](")]) = .ok p ∧
        ¬∃ report, p.check = .ok report := by
  have ends {d : Datum} (h : (ofData d).toOption.map (·.check.toOption.isSome) = some false) :
      ∃ p, ofData d = .ok p ∧ ¬∃ report, p.check = .ok report := by
    obtain ⟨p, loaded, none⟩ := Option.map_eq_some_iff.mp h
    refine ⟨p, toOption_eq_some_iff.mp loaded, ?_⟩
    rintro ⟨report, returned⟩
    rw [returned] at none
    cases none
  exact ⟨ends (by decide +kernel), ends (by decide +kernel)⟩

end Neogrammar.Project
