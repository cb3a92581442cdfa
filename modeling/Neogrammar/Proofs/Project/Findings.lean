import Neogrammar.Proofs.Project.Lineage
import Neogrammar.Proofs.SoundChange.Limits

/-!
# The check of a project

A check that returns lists exactly the defects of a project, part by part and in the order of their
places. It returns unless a number that a finding shows has more digits than may be written, or a
stored sound change fails to compile with an error that is none of editing.
-/
namespace Neogrammar

/-- What a finding is about: the rule, the thing, and the details. -/
abbrev Defect := CheckRule × Entity × List (String × Datum)

/-- A finding without its message. -/
def Finding.defect (f : Finding) : Defect := (f.rule, f.entity, f.details)

/-- The language that a finding about a thing belongs to. -/
def Entity.owner : Entity → Nat
  | language i => i
  | word l _ => l
  | soundChange l _ => l

namespace Project

/-! ## Scans -/

section

variable {α : Type} {items : List α} {look : α → Except Error (List Finding)}
  {report : List Finding}

/-- A scan that returns has found what there is to find about each item. -/
theorem defects_scan {found : α → List Defect}
    (h : scan items look = .ok report)
    (each : ∀ a ∈ items, ∀ fs, look a = .ok fs → fs.map Finding.defect = found a) :
    report.map Finding.defect = items.flatMap found := by
  obtain ⟨parts, hm, rfl⟩ := map_eq_ok_iff.mp h
  clear h
  induction items generalizing parts with
  | nil =>
    cases hm
    rfl
  | cons a items ih =>
    rw [List.mapM_cons] at hm
    obtain ⟨first, hf, hm⟩ := bind_eq_ok_iff.mp hm
    obtain ⟨more, hmore, hm⟩ := bind_eq_ok_iff.mp hm
    cases hm
    rw [List.forall_mem_cons] at each
    rw [List.flatten_cons, List.map_append, each.1 first hf, ih each.2 more hmore,
      List.flatMap_cons]

theorem failsOnly_scan {P : Error → Prop} (each : ∀ a ∈ items, FailsOnly P (look a)) :
    FailsOnly P (scan items look) :=
  (FailsOnly.mapM each).map

theorem flatMap_if {β : Type} (q : α → Prop) [DecidablePred q] (f : α → β) (as : List α) :
    (as.flatMap fun a => if q a then [f a] else []) = (as.filter q).map f := by
  induction as with
  | nil => rfl
  | cons a as ih =>
    by_cases h : q a <;> simp [h, ih]

end

/-! ## Defects -/

variable {p : Project} {i j : Nat} {l : Language} {e : Error} {fs report : List Finding}

/-- Languages whose walk up never ends. -/
def loopDefects (p : Project) : List Defect :=
  (p.languages.items.filter fun e => p.Endless e.1).map fun e =>
    (.ancestryLoop, .language e.1,
      [("chain", .list ((p.walk (p.languages.size + 1) [e.1] e.2.ancestor).map .int))])

/-- Coordinates of words that name no live word of a live language. -/
def ghostDefects (p : Project) : List Defect :=
  p.placedWords.flatMap fun (l, i, w) => (w.ancestors.filter fun c => ¬p.Names c).map fun c =>
    (.ghostCoordinate, .word l i, [("lang", .int c.lang), ("word", .int c.word)])

/-- Languages whose ancestor is not live. -/
def ancestorDefects (p : Project) : List Defect :=
  p.languages.items.flatMap fun (i, l) =>
    (l.ancestor.toList.filter fun a => ¬p.languages.isLive a).map fun a =>
      (.missingAncestor, .language i, [("ancestor", .int a)])

/-- Words whose part of speech is not live. -/
def posDefects (p : Project) : List Defect :=
  (p.placedWords.filter fun e => ¬p.partsOfSpeech.isLive e.2.2.pos).map fun (l, i, w) =>
    (.missingPos, .word l i, [("pos", .int w.pos)])

/-- Sound changes that do not compile. -/
def soundChangeDefects (p : Project) : List Defect :=
  p.languages.items.flatMap fun (l, language) =>
    (language.soundChanges.rules.zipIdx.filter fun e => ¬language.soundChanges.Accepts e.1).map
      fun (s, i) => (.brokenSoundChange, .soundChange l i, [("rule", .text s.text)])

/-- All defects of a project. -/
def defects (p : Project) : List Defect :=
  p.loopDefects ++ p.ghostDefects ++ p.ancestorDefects ++ p.posDefects ++ p.soundChangeDefects

theorem defect_loopFinding (hl : p.languages.find? i = some l) (h : p.loopFinding i l = .ok fs) :
    fs.map Finding.defect = if p.Endless i then [(.ancestryLoop, .language i,
      [("chain", .list ((p.walk (p.languages.size + 1) [(i : Int)] l.ancestor).map .int))])] else [] := by
  rw [loopFinding, hasAncestryCycle_eq hl, ok_bind] at h
  by_cases endless : p.Endless i
  · rw [if_pos (by simpa using endless)] at h
    obtain ⟨name, -, h⟩ := bind_eq_ok_iff.mp h
    obtain ⟨chain, hc, h⟩ := bind_eq_ok_iff.mp h
    have language : p.language i = .ok l := language_eq_ok_iff.mpr ⟨Int.natCast_nonneg i, hl⟩
    rw [ancestry, language] at hc
    cases hc
    cases h
    rw [if_pos endless]
    rfl
  · rw [if_neg (by simpa using endless)] at h
    cases h
    rw [if_neg endless]
    rfl

theorem defect_ghostFinding {c : Coordinate} (h : p.ghostFinding i j c = .ok fs) :
    fs.map Finding.defect = if ¬p.Names c then
      [(.ghostCoordinate, .word i j, [("lang", .int c.lang), ("word", .int c.word)])] else [] := by
  unfold ghostFinding at h
  cases hr : p.resolve c with
  | ok w =>
    rw [hr] at h
    cases h
    rw [if_neg (not_not.mpr (names_iff.mpr ⟨w, hr⟩))]
    rfl
  | error e =>
    rw [hr] at h
    obtain ⟨text, -, h⟩ := bind_eq_ok_iff.mp h
    cases h
    rw [if_pos (by simp [names_iff, hr])]
    rfl

theorem defect_ancestorFinding (h : p.ancestorFinding i l = .ok fs) :
    fs.map Finding.defect = (l.ancestor.toList.filter fun a => ¬p.languages.isLive a).map fun a =>
      (.missingAncestor, .language i, [("ancestor", .int a)]) := by
  unfold ancestorFinding at h
  split at h
  · rename_i none
    cases h
    rw [none]
    rfl
  · rename_i a ancestor
    rw [ancestor]
    split at h
    · rename_i live
      cases h
      simp [live]
    · rename_i gone
      obtain ⟨text, -, h⟩ := bind_eq_ok_iff.mp h
      cases h
      simp [gone, Finding.defect]

theorem defect_posFinding {w : Word} (h : p.posFinding i j w = .ok fs) :
    fs.map Finding.defect = if ¬p.partsOfSpeech.isLive w.pos then
      [(.missingPos, .word i j, [("pos", .int w.pos)])] else [] := by
  unfold posFinding at h
  split at h
  · rename_i live
    cases h
    simp [live]
  · rename_i gone
    obtain ⟨text, -, h⟩ := bind_eq_ok_iff.mp h
    cases h
    simp [gone, Finding.defect]

theorem written_failsOnly (d : Datum) : FailsOnly (· = .number .unwritable) d.written := by
  unfold Datum.written
  split
  · exact .ok _
  · exact .error rfl

/-- A stored sound change fails as it compiles, unless it cannot be written down. -/
theorem recompile_error {c : SoundChanges} {s : SoundChange} (h : c.recompile s = .error e) :
    e = .number .unwritable ∨ c.compile s .default = .error e := by
  rcases bind_eq_error_iff.mp h with h | ⟨_, -, h⟩
  · exact .inl (written_failsOnly _ e h)
  rcases bind_eq_error_iff.mp h with h | ⟨_, -, h⟩
  · exact .inl (written_failsOnly _ e h)
  · exact .inr h

theorem compile_of_recompile {c : SoundChanges} {s : SoundChange} {ps : Pipeline}
    (h : c.recompile s = .ok ps) : c.compile s .default = .ok ps := by
  obtain ⟨_, -, h⟩ := bind_eq_ok_iff.mp h
  obtain ⟨_, -, h⟩ := bind_eq_ok_iff.mp h
  exact h

theorem defect_soundChangeFinding {c : SoundChanges} {s : SoundChange}
    (h : soundChangeFinding i c j s = .ok fs) : fs.map Finding.defect = if ¬c.Accepts s then
      [(.brokenSoundChange, .soundChange i j, [("rule", .text s.text)])] else [] := by
  unfold soundChangeFinding at h
  cases hr : c.recompile s with
  | ok ps =>
    rw [hr] at h
    cases h
    rw [if_neg (not_not.mpr ⟨ps, compile_of_recompile hr⟩)]
    rfl
  | error e =>
    rw [hr] at h
    dsimp only at h
    split at h
    · rename_i editing
      cases h
      rcases recompile_error hr with rfl | failed
      · cases editing
      · rw [if_pos (by simp [SoundChanges.Accepts, failed])]
        rfl
    · cases h

/-- A check that returns lists the defects of the project. -/
theorem defects_check (h : p.check = .ok report) : report.map Finding.defect = p.defects := by
  obtain ⟨loops, hloops, h⟩ := bind_eq_ok_iff.mp h
  obtain ⟨ghosts, hghosts, h⟩ := bind_eq_ok_iff.mp h
  obtain ⟨ancestors, hancestors, h⟩ := bind_eq_ok_iff.mp h
  obtain ⟨pos, hpos, h⟩ := bind_eq_ok_iff.mp h
  obtain ⟨broken, hbroken, h⟩ := bind_eq_ok_iff.mp h
  cases h
  have loops' : loops.map Finding.defect = p.loopDefects := by
    rw [loopDefects, ← flatMap_if]
    exact defects_scan hloops fun e he fs h => defect_loopFinding (Slots.mem_items.mp he) h
  have ghosts' : ghosts.map Finding.defect = p.ghostDefects := by
    refine defects_scan hghosts fun ⟨l, i, w⟩ _ fs h => ?_
    dsimp only
    rw [← flatMap_if]
    exact defects_scan h fun c _ gs h => defect_ghostFinding h
  have ancestors' : ancestors.map Finding.defect = p.ancestorDefects :=
    defects_scan hancestors fun e _ fs h => defect_ancestorFinding h
  have pos' : pos.map Finding.defect = p.posDefects := by
    rw [posDefects, ← flatMap_if]
    exact defects_scan hpos fun e _ fs h => defect_posFinding h
  have broken' : broken.map Finding.defect = p.soundChangeDefects := by
    refine defects_scan hbroken fun ⟨i, l⟩ _ fs h => ?_
    dsimp only
    rw [← flatMap_if]
    exact defects_scan h fun s _ gs h => defect_soundChangeFinding h
  simp only [List.map_append, loops', ghosts', ancestors', pos', broken', defects]

/-! ## How a check fails -/

/-- What findings show can be written: names of languages whose walk up never ends, and numbers that
lead nowhere. -/
structure Presentable (p : Project) : Prop where
  names : ∀ e ∈ p.languages.items, p.Endless e.1 → e.2.name.isWritable = true
  coordinates : ∀ e ∈ p.placedWords, ∀ c ∈ e.2.2.ancestors, ¬p.Names c →
    Text.isWritable c.lang = true ∧ Text.isWritable c.word = true
  ancestors : ∀ e ∈ p.languages.items, ∀ a ∈ e.2.ancestor, p.languages.isLive a = false →
    Text.isWritable a = true
  pos : ∀ e ∈ p.placedWords, p.partsOfSpeech.isLive e.2.2.pos = false →
    Text.isWritable e.2.2.pos = true

/-- An error that ends a check: a number of a finding cannot be written, or a stored sound change
fails to compile for a reason that is none of editing. -/
inductive Stops (p : Project) : Error → Prop
  | unwritable (h : ¬p.Presentable) : Stops p (.number .unwritable)
  | soundChange {i : Nat} {l : Language} {s : SoundChange} {e : Error}
      (live : p.languages.find? i = some l) (stored : s ∈ l.soundChanges.rules)
      (failed : l.soundChanges.recompile s = .error e) (other : e.isEditing = false) : Stops p e

theorem stops_written {d : Datum} (h : p.Presentable → d.isWritable = true) :
    FailsOnly p.Stops d.written := by
  unfold Datum.written
  split
  · exact .ok _
  · exact .error (.unwritable fun presentable => absurd (h presentable) ‹_›)

theorem stops_noted {d : Datum} (h : p.Presentable → d.isWritable = true) :
    FailsOnly p.Stops d.noted := by
  unfold Datum.noted
  split
  · exact .ok _
  · exact .error (.unwritable fun presentable => absurd (h presentable) ‹_›)

theorem stops_loopFinding (hl : p.languages.find? i = some l) :
    FailsOnly p.Stops (p.loopFinding i l) := by
  rw [loopFinding, hasAncestryCycle_eq hl, ok_bind]
  split
  · rename_i endless
    have language : p.language i = .ok l := language_eq_ok_iff.mpr ⟨Int.natCast_nonneg i, hl⟩
    refine (stops_noted fun presentable => ?_).bind fun name _ => ?_
    · exact presentable.names (i, l) (Slots.mem_items.mpr hl) (by simpa using endless)
    · rw [ancestry, language]
      exact .ok _
  · exact .ok _

theorem stops_ghostFinding {w : Word} (placed : (i, j, w) ∈ p.placedWords) {c : Coordinate}
    (hc : c ∈ w.ancestors) : FailsOnly p.Stops (p.ghostFinding i j c) := by
  unfold ghostFinding
  cases hr : p.resolve c with
  | ok v => exact .ok _
  | error e =>
    have ghost : ¬p.Names c := by simp [names_iff, hr]
    have shown (h : p.Presentable) := h.coordinates _ placed c hc ghost
    have lang : FailsOnly p.Stops (Datum.int c.lang).written := stops_written fun h => (shown h).1
    have word : FailsOnly p.Stops (Datum.int c.word).written := stops_written fun h => (shown h).2
    have written : FailsOnly p.Stops c.written := lang.bind fun _ _ => word.bind fun _ _ => .ok _
    exact written.bind fun text _ => .ok _

theorem stops_ancestorFinding (hl : p.languages.find? i = some l) :
    FailsOnly p.Stops (p.ancestorFinding i l) := by
  unfold ancestorFinding
  split
  · exact .ok _
  · rename_i a ancestor
    split
    · exact .ok _
    · rename_i gone
      refine (stops_written fun presentable => ?_).bind fun text _ => .ok _
      exact presentable.ancestors (i, l) (Slots.mem_items.mpr hl) a ancestor (by simpa using gone)

theorem stops_posFinding {w : Word} (placed : (i, j, w) ∈ p.placedWords) :
    FailsOnly p.Stops (p.posFinding i j w) := by
  unfold posFinding
  split
  · exact .ok _
  · rename_i gone
    refine (stops_written fun presentable => ?_).bind fun text _ => .ok _
    exact presentable.pos _ placed (by simpa using gone)

theorem stops_soundChangeFinding (hl : p.languages.find? i = some l) {s : SoundChange}
    (hs : s ∈ l.soundChanges.rules) : FailsOnly p.Stops (soundChangeFinding i l.soundChanges j s) := by
  unfold soundChangeFinding
  cases hr : l.soundChanges.recompile s with
  | ok ps => exact .ok _
  | error e =>
    dsimp only
    split
    · exact .ok _
    · rename_i other
      exact .error (.soundChange hl hs hr (by simpa using other))

/-- A check that fails is stopped by a number or by a sound change. -/
theorem stops_check (p : Project) : FailsOnly p.Stops p.check := by
  have loops : FailsOnly p.Stops p.loopFindings :=
    failsOnly_scan fun e he => stops_loopFinding (Slots.mem_items.mp he)
  have ghosts : FailsOnly p.Stops p.ghostFindings :=
    failsOnly_scan fun e he => failsOnly_scan fun c hc => stops_ghostFinding he hc
  have ancestors : FailsOnly p.Stops p.ancestorFindings :=
    failsOnly_scan fun e he => stops_ancestorFinding (Slots.mem_items.mp he)
  have pos : FailsOnly p.Stops p.posFindings :=
    failsOnly_scan fun e he => stops_posFinding he
  have broken : FailsOnly p.Stops p.soundChangeFindings :=
    failsOnly_scan fun e he => failsOnly_scan fun s hs =>
      stops_soundChangeFinding (Slots.mem_items.mp he) (List.fst_mem_of_mem_zipIdx hs)
  exact loops.bind fun _ _ => ghosts.bind fun _ _ => ancestors.bind fun _ _ => pos.bind fun _ _ =>
    broken.bind fun _ _ => .ok _

theorem isWritable_of_written {d : Datum} {shown : String} (h : d.written = .ok shown) :
    d.isWritable = true := by
  unfold Datum.written at h
  split at h
  · assumption
  · cases h

theorem look_of_scan {α : Type} {items : List α} {look : α → Except Error (List Finding)}
    (h : scan items look = .ok report) : ∀ a ∈ items, ∃ fs, look a = .ok fs := by
  intro a ha
  obtain ⟨parts, hm, -⟩ := map_eq_ok_iff.mp h
  obtain ⟨fs, -, hfs⟩ := mapM_mem hm ha
  exact ⟨fs, hfs⟩

theorem writable_of_loopFinding (hl : p.languages.find? i = some l) (endless : p.Endless i)
    (h : p.loopFinding i l = .ok fs) : l.name.isWritable = true := by
  rw [loopFinding, hasAncestryCycle_eq hl, ok_bind, if_pos (by simpa using endless)] at h
  obtain ⟨name, noted, -⟩ := bind_eq_ok_iff.mp h
  unfold Datum.noted at noted
  split at noted
  · assumption
  · cases noted

theorem writable_of_ghostFinding {c : Coordinate} (ghost : ¬p.Names c)
    (h : p.ghostFinding i j c = .ok fs) :
    Text.isWritable c.lang = true ∧ Text.isWritable c.word = true := by
  unfold ghostFinding at h
  cases hr : p.resolve c with
  | ok w => exact absurd (names_iff.mpr ⟨w, hr⟩) ghost
  | error e =>
    rw [hr] at h
    obtain ⟨text, written, -⟩ := bind_eq_ok_iff.mp h
    obtain ⟨lang, hlang, written⟩ := bind_eq_ok_iff.mp written
    obtain ⟨word, hword, -⟩ := bind_eq_ok_iff.mp written
    exact ⟨isWritable_of_written hlang, isWritable_of_written hword⟩

theorem writable_of_ancestorFinding {a : Int} (ancestor : l.ancestor = some a)
    (gone : p.languages.isLive a = false) (h : p.ancestorFinding i l = .ok fs) :
    Text.isWritable a = true := by
  simp only [ancestorFinding, ancestor, gone, Bool.false_eq_true, if_false] at h
  obtain ⟨text, written, -⟩ := bind_eq_ok_iff.mp h
  exact isWritable_of_written written

theorem writable_of_posFinding {w : Word} (gone : p.partsOfSpeech.isLive w.pos = false)
    (h : p.posFinding i j w = .ok fs) : Text.isWritable w.pos = true := by
  simp only [posFinding, gone, Bool.false_eq_true, if_false] at h
  obtain ⟨text, written, -⟩ := bind_eq_ok_iff.mp h
  exact isWritable_of_written written

/-- A check returns exactly if nothing stops it. -/
theorem check_returns_iff : (∃ report, p.check = .ok report) ↔ ∀ e, ¬p.Stops e := by
  constructor
  · rintro ⟨report, h⟩ e stops
    obtain ⟨loops, hloops, h⟩ := bind_eq_ok_iff.mp h
    obtain ⟨ghosts, hghosts, h⟩ := bind_eq_ok_iff.mp h
    obtain ⟨ancestors, hancestors, h⟩ := bind_eq_ok_iff.mp h
    obtain ⟨pos, hpos, h⟩ := bind_eq_ok_iff.mp h
    obtain ⟨broken, hbroken, -⟩ := bind_eq_ok_iff.mp h
    cases stops with
    | unwritable unpresentable =>
      refine unpresentable ⟨fun e he endless => ?_, fun e he c hc ghost => ?_,
        fun e he a ancestor gone => ?_, fun e he gone => ?_⟩
      · obtain ⟨fs, hfs⟩ := look_of_scan hloops e he
        exact writable_of_loopFinding (Slots.mem_items.mp he) endless hfs
      · obtain ⟨fs, hfs⟩ := look_of_scan hghosts e he
        obtain ⟨gs, hgs⟩ := look_of_scan hfs c hc
        exact writable_of_ghostFinding ghost hgs
      · obtain ⟨fs, hfs⟩ := look_of_scan hancestors e he
        exact writable_of_ancestorFinding ancestor gone hfs
      · obtain ⟨fs, hfs⟩ := look_of_scan hpos e he
        exact writable_of_posFinding gone hfs
    | soundChange live stored failed other =>
      obtain ⟨fs, hfs⟩ := look_of_scan hbroken _ (Slots.mem_items.mpr live)
      obtain ⟨j, hj⟩ := List.mem_iff_getElem?.mp stored
      obtain ⟨gs, hgs⟩ := look_of_scan hfs (_, j) (List.mem_zipIdx_iff_getElem?.mpr hj)
      simp only [soundChangeFinding, failed, other, Bool.false_eq_true, if_false] at hgs
      cases hgs
  · intro never
    cases h : p.check with
    | ok report => exact ⟨report, rfl⟩
    | error e => exact absurd (p.stops_check e h) (never e)

end Project
end Neogrammar
