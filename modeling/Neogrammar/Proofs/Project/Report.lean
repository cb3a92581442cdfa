import Mathlib.Data.List.Perm.Basic
import Mathlib.Data.List.TakeWhile
import Neogrammar.Proofs.Project.Findings
import Neogrammar.Proofs.Text.Written

/-!
# Reports

The report on a project is empty exactly if the project has no defect, and the reports on its live
languages partition it.
-/
namespace Neogrammar

theorem takeWhile_entity (e : Entity) :
    e.text.toList.takeWhile (· != ':') = (Text.natText e.owner).toList := by
  have digits (n : Nat) : ∀ c ∈ (Text.natText n).toList, (c != ':') = true := by
    intro c hc
    have digit := Text.isDigit_of_mem_natText hc
    rw [bne_iff_ne]
    rintro rfl
    cases digit
  have pair (m n : Nat) : ((Text.natText m ++ ":" ++ Text.natText n).toList).takeWhile (· != ':') =
      (Text.natText m).toList := by
    have colon : ":".toList = [':'] := rfl
    rw [String.toList_append, String.toList_append, List.append_assoc, colon,
      List.takeWhile_append_of_pos (digits m)]
    simp
  cases e with
  | language i => exact List.takeWhile_eq_self_iff.mpr (digits i)
  | word l i => exact pair l i
  | soundChange l i => exact pair l i

/-- Whether the place of a thing begins with an index says whether the thing belongs to that
language: no index is the beginning of another one's place. -/
theorem placed_iff (e : Entity) (i : Nat) :
    (e.text.toList.takeWhile (· != ':') == (Text.natText i).toList) = decide (e.owner = i) := by
  rw [takeWhile_entity, Bool.eq_iff_iff, beq_iff_eq, decide_eq_true_eq, String.toList_inj,
    Text.natText_inj]

/-- What belongs to distinct owners is partitioned by them. -/
theorem flatMap_filter_perm {α : Type} {owner : α → Nat} {owners : List Nat} {as : List α}
    (distinct : owners.Nodup) (owned : ∀ a ∈ as, owner a ∈ owners) :
    (owners.flatMap fun i => as.filter fun a => owner a = i).Perm as := by
  induction owners generalizing as with
  | nil =>
    cases as with
    | nil => exact .nil
    | cons a as => exact absurd (owned a List.mem_cons_self) List.not_mem_nil
  | cons i owners ih =>
    rw [List.nodup_cons] at distinct
    have rest : (owners.flatMap fun j => as.filter fun a => owner a = j) =
        owners.flatMap fun j => (as.filter fun a => ¬owner a = i).filter fun a => owner a = j := by
      refine List.flatMap_congr fun j hj => ?_
      rw [List.filter_filter]
      refine List.filter_congr fun a _ => ?_
      have : j ≠ i := fun h => distinct.1 (h ▸ hj)
      by_cases h : owner a = j <;> simp [h, this]
    rw [List.flatMap_cons, rest]
    refine .trans (.append_left _ (ih distinct.2 fun a ha => ?_)) ?_
    · obtain ⟨ha, other⟩ := List.mem_filter.mp ha
      exact (List.mem_cons.mp (owned a ha)).resolve_left (by simpa using other)
    · simpa using List.filter_append_perm (fun a => decide (owner a = i)) as

namespace Project

variable {p : Project} {i j : Nat} {l : Language} {w : Word} {report : List Finding}

theorem mem_placedWords :
    (i, j, w) ∈ p.placedWords ↔
      ∃ l, p.languages.find? i = some l ∧ l.vocab.find? j = some w := by
  simp only [placedWords, List.mem_flatMap, List.mem_map, Prod.exists, Prod.mk.injEq,
    Slots.mem_items]
  constructor
  · rintro ⟨_, l, hl, _, _, hw, rfl, rfl, rfl⟩
    exact ⟨l, hl, hw⟩
  · rintro ⟨l, hl, hw⟩
    exact ⟨i, l, hl, j, w, hw, rfl, rfl, rfl⟩

/-- The defects that a project has. -/
inductive HasDefect (p : Project) : Defect → Prop
  | loop {i : Nat} {l : Language} (live : p.languages.find? i = some l) (endless : p.Endless i) :
      HasDefect p (.ancestryLoop, .language i,
        [("chain", .list ((p.walk (p.languages.size + 1) [(i : Int)] l.ancestor).map .int))])
  | ghost {i j : Nat} {w : Word} {c : Coordinate} (placed : (i, j, w) ∈ p.placedWords)
      (named : c ∈ w.ancestors) (lost : ¬p.Names c) :
      HasDefect p (.ghostCoordinate, .word i j, [("lang", .int c.lang), ("word", .int c.word)])
  | ancestor {i : Nat} {l : Language} {a : Int} (live : p.languages.find? i = some l)
      (named : l.ancestor = some a) (gone : ¬p.languages.isLive a = true) :
      HasDefect p (.missingAncestor, .language i, [("ancestor", .int a)])
  | pos {i j : Nat} {w : Word} (placed : (i, j, w) ∈ p.placedWords)
      (gone : ¬p.partsOfSpeech.isLive w.pos = true) :
      HasDefect p (.missingPos, .word i j, [("pos", .int w.pos)])
  | soundChange {i j : Nat} {l : Language} {s : SoundChange}
      (live : p.languages.find? i = some l) (stored : l.soundChanges.rules[j]? = some s)
      (refused : ¬l.soundChanges.Accepts s) :
      HasDefect p (.brokenSoundChange, .soundChange i j, [("rule", .text s.text)])

theorem mem_defects {d : Defect} : d ∈ p.defects ↔ p.HasDefect d := by
  simp only [defects, loopDefects, ghostDefects, ancestorDefects, posDefects, soundChangeDefects,
    List.mem_append, List.mem_map, List.mem_flatMap, List.mem_filter, Prod.exists, Slots.mem_items,
    decide_eq_true_eq, Option.mem_toList, List.mem_zipIdx_iff_getElem?]
  constructor
  · rintro ((((⟨i, l, ⟨live, endless⟩, rfl⟩ | ⟨i, j, w, placed, c, ⟨named, lost⟩, rfl⟩) |
      ⟨i, l, live, a, ⟨named, gone⟩, rfl⟩) | ⟨i, j, w, ⟨placed, gone⟩, rfl⟩) |
      ⟨i, l, live, s, j, ⟨stored, refused⟩, rfl⟩)
    · exact .loop live endless
    · exact .ghost placed named lost
    · exact .ancestor live named gone
    · exact .pos placed gone
    · exact .soundChange live stored refused
  · intro h
    cases h with
    | loop live endless => exact .inl (.inl (.inl (.inl ⟨_, _, ⟨live, endless⟩, rfl⟩)))
    | ghost placed named lost =>
      exact .inl (.inl (.inl (.inr ⟨_, _, _, placed, _, ⟨named, lost⟩, rfl⟩)))
    | ancestor live named gone => exact .inl (.inl (.inr ⟨_, _, live, _, ⟨named, gone⟩, rfl⟩))
    | pos placed gone => exact .inl (.inr ⟨_, _, _, ⟨placed, gone⟩, rfl⟩)
    | soundChange live stored refused =>
      exact .inr ⟨_, _, live, _, _, ⟨stored, refused⟩, rfl⟩

/-- Every defect belongs to a live language. -/
theorem HasDefect.owner {d : Defect} (h : p.HasDefect d) :
    ∃ l, p.languages.find? d.2.1.owner = some l := by
  cases h with
  | loop live endless => exact ⟨_, live⟩
  | ghost placed named lost => exact (mem_placedWords.mp placed).imp fun _ => And.left
  | ancestor live named gone => exact ⟨_, live⟩
  | pos placed gone => exact (mem_placedWords.mp placed).imp fun _ => And.left
  | soundChange live stored refused => exact ⟨_, live⟩

/-- A language has a defect of a sound change exactly if it has a sound change that does not
compile. -/
theorem broken_defect_iff (hl : p.languages.find? i = some l) :
    (∃ d, p.HasDefect d ∧ d.1 = .brokenSoundChange ∧ d.2.1.owner = i) ↔
      ∃ s ∈ l.soundChanges.rules, ¬l.soundChanges.Accepts s := by
  constructor
  · rintro ⟨d, h, rule, rfl⟩
    cases h with
    | soundChange live stored refused =>
      cases live.symm.trans hl
      exact ⟨_, List.mem_of_getElem? stored, refused⟩
    | _ => cases rule
  · rintro ⟨s, hs, refused⟩
    obtain ⟨j, stored⟩ := List.mem_iff_getElem?.mp hs
    exact ⟨_, .soundChange hl stored refused, rfl, rfl⟩

/-- A report that was returned has a finding for each defect and no other. -/
theorem exists_finding_iff (h : p.check = .ok report) {P : Defect → Prop} :
    (∃ f ∈ report, P f.defect) ↔ ∃ d, p.HasDefect d ∧ P d := by
  simp [← mem_defects, ← defects_check h]

/-- A language has a finding about a sound change exactly if its sound changes do not compile. -/
theorem broken_iff (h : p.check = .ok report) (hl : p.languages.find? i = some l) (limits : Limits) :
    (∃ e, l.soundChanges.compileAll limits = .error e) ↔
      ∃ f ∈ report, f.rule = .brokenSoundChange ∧ f.entity.owner = i := by
  have fails : (∃ e, l.soundChanges.compileAll limits = .error e) ↔
      ¬∃ ps, l.soundChanges.compileAll limits = .ok ps := by
    cases l.soundChanges.compileAll limits <;> simp
  have listed := exists_finding_iff h (P := fun d => d.1 = .brokenSoundChange ∧ d.2.1.owner = i)
  rw [fails, l.soundChanges.compileAll_returns_iff limits]
  refine Iff.trans ?_ ((broken_defect_iff hl).symm.trans listed.symm)
  push Not
  rfl

/-- The report on one language are the findings that belong to it. -/
theorem checkLanguage_eq (h : p.check = .ok report) (short : Text.isWritable i = true) :
    p.checkLanguage i = .ok (report.filter fun f => f.entity.owner = i) := by
  have written : (Datum.int i).written = .ok (Text.natText i) := if_pos short
  simp only [checkLanguage, written, h, ok_bind, placed_iff, pure_eq_ok]

/-- A report that is exact: it lists the defects part by part, the live languages partition it, and
it tells whose sound changes do not compile. -/
structure Exact (p : Project) (report : List Finding) : Prop where
  listed : report.map Finding.defect = p.defects
  empty : report = [] ↔ ∀ d, ¬p.HasDefect d
  language : ∀ i l, p.languages.find? i = some l →
    p.checkLanguage i = .ok (report.filter fun f => f.entity.owner = i)
  partition : ∃ parts, p.languages.items.mapM (fun e => p.checkLanguage e.1) = .ok parts ∧
    parts.flatten.Perm report
  broken : ∀ i l limits, p.languages.find? i = some l →
    ((∃ e, l.soundChanges.compileAll limits = .error e) ↔
      ∃ f ∈ report, f.rule = .brokenSoundChange ∧ f.entity.owner = i)

theorem eq_nil_iff (h : p.check = .ok report) : report = [] ↔ ∀ d, ¬p.HasDefect d := by
  rw [← List.map_eq_nil_iff (f := Finding.defect), defects_check h, List.eq_nil_iff_forall_not_mem]
  simp only [mem_defects]

/-- The reports on the live languages make up the whole report. -/
theorem partition_report (h : p.check = .ok report)
    (short : ∀ e ∈ p.languages.items, Text.isWritable e.1 = true) :
    ∃ parts, p.languages.items.mapM (fun e => p.checkLanguage e.1) = .ok parts ∧
      parts.flatten.Perm report := by
  have each : ∀ e ∈ p.languages.items,
      p.checkLanguage e.1 = .ok (report.filter fun f => f.entity.owner = e.1) :=
    fun e he => checkLanguage_eq h (short e he)
  refine ⟨_, mapM_eq_ok each, ?_⟩
  have distinct : (p.languages.items.map Prod.fst).Nodup := by
    refine List.pairwise_map.mpr (p.languages.items_sorted.imp fun before => ?_)
    exact Nat.ne_of_lt before
  have owned : ∀ f ∈ report, f.entity.owner ∈ p.languages.items.map Prod.fst := by
    intro f hf
    have listed : f.defect ∈ p.defects := defects_check h ▸ List.mem_map_of_mem hf
    obtain ⟨l, hl⟩ := (mem_defects.mp listed).owner
    exact List.mem_map.mpr ⟨(_, l), Slots.mem_items.mpr hl, rfl⟩
  have whole := flatMap_filter_perm distinct owned
  rwa [List.flatMap_map, List.flatMap_def] at whole

/-- Where stored sound changes fail to compile with errors of editing only, a check returns and its
report is exact, unless the report would show a number that cannot be written. -/
theorem check_exact (p : Project)
    (editing : ∀ e ∈ p.languages.items, ∀ s ∈ e.2.soundChanges.rules,
      FailsOnly (·.isEditing = true) (e.2.soundChanges.recompile s))
    (presentable : p.Presentable)
    (short : ∀ e ∈ p.languages.items, Text.isWritable e.1 = true) :
    ∃ report, p.check = .ok report ∧ p.Exact report := by
  cases h : p.check with
  | error e =>
    cases p.stops_check e h with
    | unwritable unpresentable => exact absurd presentable unpresentable
    | soundChange live stored failed other =>
      rw [editing _ (Slots.mem_items.mpr live) _ stored _ failed] at other
      cases other
  | ok report =>
    exact ⟨report, rfl, defects_check h, eq_nil_iff h,
      fun i l hl => checkLanguage_eq h (short _ (Slots.mem_items.mpr hl)), partition_report h short,
      fun i l limits hl => broken_iff h hl limits⟩

/-- A project with defects of each kind: the ancestors of two languages loop, and a word names a
language that is gone; a third language names it too, and has a word without a part of speech and a
sound change whose target has no category to pair. -/
def wrecks : Project :=
  { languages := ⟨[some { Language.named "Ayi" with
        ancestor := some 1, vocab := ⟨[some (.entered "ta" "stone" 0 "" [⟨0, 0⟩, ⟨2, 0⟩])]⟩ },
      some { Language.named "Bel" with ancestor := some 0 }, none,
      some { Language.named "Cor" with
        ancestor := some 2, vocab := ⟨[none, some (.entered "ka" "sand" 1 "" [])]⟩,
        soundChanges := ⟨⟨[('V', ["a", "e"])]⟩, [⟨"V", "i", "_"⟩, ⟨"k", "V", "_"⟩]⟩ }]⟩,
    partsOfSpeech := ⟨[some ⟨"noun", "n"⟩]⟩ }

theorem check_exact_wrecks :
    ∃ report, wrecks.check = .ok report ∧ wrecks.Exact report ∧
      report.map (fun f => (f.rule, f.entity)) =
        [(.ancestryLoop, .language 0), (.ancestryLoop, .language 1), (.ghostCoordinate, .word 0 0),
          (.missingAncestor, .language 3), (.missingPos, .word 3 1),
          (.brokenSoundChange, .soundChange 3 1)] := by
  have presentable : wrecks.Presentable := by
    constructor <;> decide +kernel
  have found : wrecks.check.toOption.map (fun report => report.map fun f => (f.rule, f.entity)) =
      some [(.ancestryLoop, .language 0), (.ancestryLoop, .language 1), (.ghostCoordinate, .word 0 0),
        (.missingAncestor, .language 3), (.missingPos, .word 3 1),
        (.brokenSoundChange, .soundChange 3 1)] := by
    decide +kernel
  obtain ⟨report, returned, exact⟩ :=
    check_exact wrecks (by decide +kernel) presentable (by decide +kernel)
  rw [returned] at found
  exact ⟨report, returned, exact, Option.some.inj found⟩

/-- A project with a word whose part of speech is not there. -/
def strays (pos : Nat) : Project :=
  { languages := ⟨[some { Language.named "Ayi" with
      vocab := ⟨[some (.entered "ta" "" pos "" [])]⟩ }]⟩,
    partsOfSpeech := .empty }

/-- Its one defect is not reported: the number cannot be written. -/
theorem check_strays {pos : Nat} (long : Text.isWritable pos = false) :
    (strays pos).HasDefect (.missingPos, .word 0 0, [("pos", .int pos)]) ∧
      (strays pos).check = .error (.number .unwritable) := by
  have words : (strays pos).placedWords = [(0, 0, .entered "ta" "" pos "" [])] := rfl
  have gone : (strays pos).partsOfSpeech.isLive pos = false := by
    simp [strays, Slots.isLive, Slots.find?, Slots.empty]
  have defect : (strays pos).HasDefect (.missingPos, .word 0 0, [("pos", .int pos)]) := by
    refine .pos (w := .entered "ta" "" pos "" []) ?_ ?_
    · rw [words]
      exact List.mem_singleton_self _
    · rw [Word.entered, gone]
      exact Bool.false_ne_true
  refine ⟨defect, ?_⟩
  have unwritten : (Datum.int pos).written = .error (.number .unwritable) :=
    if_neg (by simp [Datum.isWritable, long])
  have look : (strays pos).posFinding 0 0 (.entered "ta" "" pos "" []) =
      .error (.number .unwritable) := by
    rw [posFinding, Word.entered, if_neg (by simp [gone]), unwritten]
    rfl
  have stop : (strays pos).posFindings = .error (.number .unwritable) := by
    rw [posFindings, words, scan, List.mapM_cons]
    dsimp only
    rw [look]
    rfl
  have loops : (strays pos).loopFindings = .ok [] := rfl
  have ghosts : (strays pos).ghostFindings = .ok [] := rfl
  have ancestors : (strays pos).ancestorFindings = .ok [] := rfl
  rw [check, loops, ghosts, ancestors, stop]
  rfl

/-- An index of 4335 digits. -/
@[irreducible] def vast : Nat := Nat.pow 16 3600

theorem isWritable_vast : Text.isWritable vast = false := by
  unfold vast
  exact Text.isWritable_eq_false (by decide +kernel)

/-- No sound change is stored, and yet the check ends without a report. -/
theorem check_strays_vast :
    (strays vast).languages.items.map (·.2.soundChanges.rules.length) = [0] ∧
      (strays vast).HasDefect (.missingPos, .word 0 0, [("pos", .int vast)]) ∧
      (strays vast).check = .error (.number .unwritable) :=
  ⟨rfl, check_strays isWritable_vast⟩

end Project
end Neogrammar
