import Mathlib.Algebra.GroupWithZero.Nat
import Neogrammar.Project.Check
import Neogrammar.Proofs.Project.Moves

/-!
# Computing all forms

Moves that leave the plain rules alone keep forms in sync. Computing all forms brings them in sync:
it counts the words of the live languages, changes nothing but forms, and done once more it changes
nothing at all.
-/
namespace Neogrammar

namespace Slots

variable {α β : Type} {s : Slots α} {f : α → β}

/-- Change every content. -/
def map (f : α → β) (s : Slots α) : Slots β := ⟨s.cells.map (Option.map f)⟩

theorem find?_map (i : Nat) : (s.map f).find? i = (s.find? i).map f := by
  simp only [find?, map, List.getElem?_map]
  cases s.cells[i]? <;> rfl

theorem get_map (index : Datum) : (s.map f).get index = (s.get index).map f := by
  have size : (s.map f).size = s.size := List.length_map _
  rw [get, get, size]
  cases locate index s.size with
  | error e => rfl
  | ok i =>
    rw [ok_bind, ok_bind, find?_map]
    cases s.find? i <;> rfl

theorem items_map : (s.map f).items = s.items.map fun e => (e.1, f e.2) := by
  have from_ (k : Nat) (cells : List (Option α)) :
      itemsFrom k (cells.map (Option.map f)) = (itemsFrom k cells).map fun e => (e.1, f e.2) := by
    induction cells generalizing k with
    | nil => rfl
    | cons cell cells ih => cases cell <;> simp [ih]
  exact from_ 0 s.cells

theorem map_put_same {i : Nat} {a b : α} (ha : s.find? i = some a) (h : f b = f a) :
    (s.put i (some b)).map f = s.map f := by
  have same : (s.map f).find? i = some (f b) := by rw [find?_map, ha, h]; rfl
  rw [← put_find? same]
  simp only [map, put, List.map_set, Option.map_some]

end Slots

/-! ## What is entered -/

/-- A word without its computed forms. -/
def Word.authored (w : Word) : Word := { w with surface := "", phonetic := "" }

/-- A language without the computed forms of its words. -/
def Language.authored (l : Language) : Language := { l with vocab := l.vocab.map Word.authored }

/-- A project without the computed forms of its words. -/
def Project.authored (p : Project) : Project := { p with languages := p.languages.map Language.authored }

namespace Word

variable {w v : Word} {toSurface toPhonetic : Pipeline}

theorem authored_morphed : (w.morphed toSurface toPhonetic).1.authored = w.authored := by
  unfold morphed
  cases hs : w.morphSurface toSurface with
  | error e => rfl
  | ok u =>
    obtain ⟨surface, -, rfl⟩ := map_eq_ok_iff.mp hs
    dsimp only
    split
    · rfl
    · rename_i hp
      obtain ⟨phonetic, -, rfl⟩ := map_eq_ok_iff.mp hp
      rfl

/-- Forms that are computed in place without a failure are those of the rules. -/
theorem morph_of_morphed (h : w.morphed toSurface toPhonetic = (v, .ok ())) :
    w.morph toSurface toPhonetic = .ok v := by
  unfold morphed at h
  unfold morph
  cases hs : w.morphSurface toSurface with
  | error e =>
    rw [hs] at h
    cases h
  | ok u =>
    rw [hs] at h
    rw [ok_bind]
    dsimp only at h
    split at h
    · cases h
    · rename_i hp
      cases h
      exact hp

end Word

namespace Language

variable {l m : Language} {limits : Limits} {ps : Pipelines} {n : Nat}

/-- The count of live words. -/
def wordCount (l : Language) : Nat := l.vocab.items.length

theorem wordCount_authored (l : Language) : l.authored.wordCount = l.wordCount := by
  simp [wordCount, authored, Slots.items_map]

theorem morphCells_ok {w v : Word} {cells : List (Option Word)}
    (h : w.morphed ps.toSurface ps.toPhonetic = (v, .ok ())) :
    morphCells ps (some w :: cells) =
      (some v :: (morphCells ps cells).1, (morphCells ps cells).2.map (· + 1)) := by
  simp only [morphCells, h]

theorem morphCells_error {w v : Word} {cells : List (Option Word)} {e : Error}
    (h : w.morphed ps.toSurface ps.toPhonetic = (v, .error e)) :
    morphCells ps (some w :: cells) = (some v :: cells, .error e) := by
  simp only [morphCells, h]

theorem authored_morphCells (ps : Pipelines) (cells : List (Option Word)) :
    (morphCells ps cells).1.map (Option.map Word.authored) = cells.map (Option.map Word.authored) := by
  induction cells with
  | nil => rfl
  | cons cell cells ih =>
    cases cell with
    | none => simp [morphCells, ih]
    | some w =>
      cases h : w.morphed ps.toSurface ps.toPhonetic with
      | mk v outcome =>
        have first : v.authored = w.authored := by
          have same : (w.morphed ps.toSurface ps.toPhonetic).1.authored = w.authored :=
            Word.authored_morphed
          rwa [h] at same
        cases outcome with
        | ok => simp [morphCells_ok h, first, ih]
        | error e => simp [morphCells_error h, first]

theorem authored_morphAll (l : Language) (ps : Pipelines) :
    (l.morphAll ps).1.authored = l.authored := by
  simp only [authored, morphAll, Slots.map, authored_morphCells]

/-- Where all forms of some cells are computed, they are those of the rules, and each word is
counted. -/
theorem morphCells_returned {cells : List (Option Word)} (h : l.pipelines limits = .ok ps)
    (hn : (morphCells ps cells).2 = .ok n) (k : Nat) :
    (∀ w, some w ∈ (morphCells ps cells).1 → l.Forms limits w) ∧
      n = (Slots.itemsFrom k cells).length := by
  induction cells generalizing n k with
  | nil =>
    cases hn
    simp [morphCells]
  | cons cell cells ih =>
    cases cell with
    | none =>
      obtain ⟨formed, count⟩ := ih hn (k + 1)
      refine ⟨fun w hw => formed w ?_, count⟩
      exact (List.mem_cons.mp hw).resolve_left (by simp)
    | some w =>
      cases hw : w.morphed ps.toSurface ps.toPhonetic with
      | mk v outcome =>
        cases outcome with
        | error e =>
          rw [morphCells_error hw] at hn
          cases hn
        | ok =>
          rw [morphCells_ok hw] at hn ⊢
          obtain ⟨rest, hr, rfl⟩ := map_eq_ok_iff.mp hn
          obtain ⟨formed, count⟩ := ih hr (k + 1)
          refine ⟨fun u hu => ?_, by simp [count]⟩
          rcases List.mem_cons.mp hu with hu | hu
          · cases hu
            exact forms_of_morph h (Word.morph_of_morphed hw)
          · exact formed u hu

/-- Computing forms that are in sync changes nothing and counts each word. -/
theorem morphCells_inSync {cells : List (Option Word)} (h : l.pipelines limits = .ok ps)
    (sync : ∀ w, some w ∈ cells → l.Forms limits w) (k : Nat) :
    morphCells ps cells = (cells, .ok (Slots.itemsFrom k cells).length) := by
  induction cells generalizing k with
  | nil => rfl
  | cons cell cells ih =>
    have rest := ih (fun w hw => sync w (List.mem_cons_of_mem _ hw)) (k + 1)
    cases cell with
    | none => simp [morphCells, rest]
    | some w =>
      rw [morphCells_ok ((sync w List.mem_cons_self).morphed h), rest]
      simp [Except.map]

theorem morphAll_returned (h : l.pipelines limits = .ok ps) (hn : (l.morphAll ps).2 = .ok n) :
    (l.morphAll ps).1.InSync limits ∧ n = l.wordCount :=
  have ⟨formed, count⟩ := morphCells_returned h hn 0
  have all : (l.morphAll ps).1.vocab.All (l.Forms limits) := formed
  ⟨inSync_withWords all l.ancestor, count⟩

theorem InSync.morphAll (h : l.pipelines limits = .ok ps) (hl : l.InSync limits) :
    l.morphAll ps = (l, .ok l.wordCount) := by
  rw [Language.morphAll, morphCells_inSync h hl 0]
  rfl

end Language

namespace Project

variable {p q : Project} {c : Config} {lang other : Int} {n : Nat} {langs : List Int}

/-- Every word of every live language has the forms that the rules of its language give. -/
def InSync (p : Project) (limits : Limits) : Prop := p.Holds fun _ l => l.InSync limits

/-! ### What computing forms leaves alone -/

theorem authored_withLanguage {l m : Language} (hl : p.language lang = .ok l)
    (same : m.authored = l.authored) : (p.withLanguage lang m).authored = p.authored := by
  have languages := Slots.map_put_same (language_eq_ok_iff.mp hl).2 same
  simp only [authored, withLanguage, languages]

theorem authored_morphLanguage (p : Project) (c : Config) (lang : Int) :
    (p.morphLanguage c lang).1.authored = p.authored := by
  unfold morphLanguage
  cases hl : p.language lang with
  | error e => rfl
  | ok l =>
    dsimp only
    cases hps : l.pipelines c.limits with
    | error e => rfl
    | ok ps => exact authored_withLanguage hl (l.authored_morphAll ps)

theorem authored_morphLanguages (p : Project) (c : Config) (count : Nat) (langs : List Int) :
    (morphLanguages c p count langs).1.authored = p.authored :=
  morphLanguages_keeps (fun q lang same => (q.authored_morphLanguage c lang).trans same) count langs
    rfl

/-- The language at an index, its computed forms left out. -/
theorem language_authored (p : Project) (lang : Int) :
    p.authored.language lang = (p.language lang).map Language.authored :=
  Slots.get_map (.int lang)

/-- The count of live words of the language at an index. -/
def wordCount (p : Project) (lang : Int) : Nat :=
  match p.language lang with
  | .ok l => l.wordCount
  | .error _ => 0

theorem wordCount_authored (p : Project) (lang : Int) :
    p.authored.wordCount lang = p.wordCount lang := by
  unfold wordCount
  rw [language_authored]
  cases p.language lang with
  | error e => rfl
  | ok l => exact l.wordCount_authored

theorem wordCount_congr (same : q.authored = p.authored) (lang : Int) :
    q.wordCount lang = p.wordCount lang := by
  rw [← wordCount_authored, same, wordCount_authored]

/-- The indices of the live languages. -/
def indices (p : Project) : List Int := p.languages.items.map fun e => (e.1 : Int)

theorem indices_congr (same : q.authored = p.authored) : q.indices = p.indices := by
  have authored (r : Project) : r.authored.indices = r.indices := by
    simp [indices, Project.authored, Slots.items_map]
  rw [← authored, same, authored]

/-! ### What computing forms comes to -/

/-- A live language whose pipelines compile and whose words have the forms that they give. -/
def Settled (p : Project) (c : Config) (lang : Int) : Prop :=
  ∃ l ps, p.language lang = .ok l ∧ l.pipelines c.limits = .ok ps ∧ l.InSync c.limits

theorem morphLanguage_of_pipelines {l : Language} {ps : Pipelines} (hl : p.language lang = .ok l)
    (hps : l.pipelines c.limits = .ok ps) :
    p.morphLanguage c lang = (p.withLanguage lang (l.morphAll ps).1, (l.morphAll ps).2) := by
  simp only [morphLanguage, hl, hps]

/-- Computing the forms of a settled language changes nothing. -/
theorem Settled.morphLanguage (h : p.Settled c lang) :
    p.morphLanguage c lang = (p, .ok (p.wordCount lang)) := by
  obtain ⟨l, ps, hl, hps, sync⟩ := h
  rw [morphLanguage_of_pipelines hl hps, sync.morphAll hps, withLanguage_self hl, wordCount, hl]

/-- A language whose forms are computed without a failure is settled, and its words are counted. -/
theorem morphLanguage_settles (hn : (p.morphLanguage c lang).2 = .ok n) :
    (p.morphLanguage c lang).1.Settled c lang ∧ n = p.wordCount lang := by
  cases hl : p.language lang with
  | error e =>
    rw [Project.morphLanguage, hl] at hn
    cases hn
  | ok l =>
    cases hps : l.pipelines c.limits with
    | error e =>
      simp only [Project.morphLanguage, hl, hps] at hn
      cases hn
    | ok ps =>
      rw [morphLanguage_of_pipelines hl hps] at hn ⊢
      obtain ⟨sync, count⟩ := Language.morphAll_returned hps hn
      exact ⟨⟨_, ps, language_withLanguage_same hl, hps, sync⟩, by rw [count, wordCount, hl]⟩

/-- Computing the forms of any language leaves a settled one settled. -/
theorem Settled.morphLanguage_other (h : p.Settled c lang) (other : Int) :
    (p.morphLanguage c other).1.Settled c lang := by
  by_cases same : other = lang
  · rw [same, h.morphLanguage]
    exact h
  · cases hl : p.language other with
    | error e =>
      rw [Project.morphLanguage, hl]
      exact h
    | ok l =>
      cases hps : l.pipelines c.limits with
      | error e =>
        simp only [Project.morphLanguage, hl, hps]
        exact h
      | ok ps =>
        obtain ⟨k, ks, hk, rest⟩ := h
        rw [morphLanguage_of_pipelines hl hps]
        have nonneg := (language_eq_ok_iff.mp hl).1
        exact ⟨k, ks, language_withLanguage_other hk nonneg same, rest⟩

/-- Computing the forms of languages without a failure settles each of them and counts their
words. -/
theorem morphLanguages_settles {count : Nat} (hn : (morphLanguages c p count langs).2 = .ok n) :
    (∀ lang ∈ langs, (morphLanguages c p count langs).1.Settled c lang) ∧
      n = count + (langs.map p.wordCount).sum := by
  induction langs generalizing p count with
  | nil =>
    cases hn
    simp
  | cons lang langs ih =>
    have same := p.authored_morphLanguage c lang
    cases hm : p.morphLanguage c lang with
    | mk q outcome =>
      cases outcome with
      | error e =>
        simp only [morphLanguages, hm] at hn
        cases hn
      | ok k =>
        have first := morphLanguage_settles (by rw [hm] : (p.morphLanguage c lang).2 = .ok k)
        rw [hm] at same first
        simp only [morphLanguages, hm] at hn ⊢
        obtain ⟨settled, total⟩ := ih hn
        have counts : langs.map q.wordCount = langs.map p.wordCount :=
          List.map_congr_left fun l _ => wordCount_congr same l
        rw [List.forall_mem_cons, List.map_cons, List.sum_cons]
        have still : (morphLanguages c q (count + k) langs).1.Settled c lang :=
          morphLanguages_keeps (Q := fun r => r.Settled c lang)
            (fun _ other h => h.morphLanguage_other other) _ langs first.1
        exact ⟨⟨still, settled⟩, by rw [total, first.2, counts, Nat.add_assoc]⟩

theorem morphLanguages_settled (count : Nat) (settled : ∀ lang ∈ langs, p.Settled c lang) :
    morphLanguages c p count langs = (p, .ok (count + (langs.map p.wordCount).sum)) := by
  induction langs generalizing count with
  | nil => rfl
  | cons lang langs ih =>
    rw [List.forall_mem_cons] at settled
    rw [morphLanguages, settled.1.morphLanguage]
    dsimp only
    rw [ih _ settled.2, List.map_cons, List.sum_cons, Nat.add_assoc]

theorem sum_wordCount (p : Project) : (p.indices.map p.wordCount).sum = p.placedWords.length := by
  have each : ∀ e ∈ p.languages.items, (p.wordCount ∘ fun e => (e.1 : Int)) e = e.2.wordCount := by
    rintro ⟨i, l⟩ hl
    change p.wordCount i = l.wordCount
    have language : p.language i = .ok l :=
      language_eq_ok_iff.mpr ⟨Int.natCast_nonneg i, Slots.mem_items.mp hl⟩
    rw [wordCount, language]
  rw [indices, List.map_map, List.map_congr_left each]
  simp [placedWords, List.length_flatMap, Language.wordCount]

/-- Computing all forms without a failure brings a project in sync, counts the words of its live
languages and changes nothing that is entered; done once more, it changes nothing. -/
theorem morphAll_syncs (h : p.morphAll c none = (q, .ok n)) :
    q.InSync c.limits ∧ n = p.placedWords.length ∧ q.authored = p.authored ∧
      q.morphAll c none = (q, .ok n) := by
  have computed : morphLanguages c p 0 p.indices = (q, .ok n) := h
  have same : q.authored = p.authored := by
    have kept := p.authored_morphLanguages c 0 p.indices
    rwa [computed] at kept
  have returned : (morphLanguages c p 0 p.indices).2 = .ok n := congrArg (·.2) computed
  obtain ⟨settled, count⟩ := morphLanguages_settles returned
  rw [computed] at settled
  rw [Nat.zero_add] at count
  refine ⟨fun i l hl => ?_, count.trans p.sum_wordCount, same, ?_⟩
  · have index : (i : Int) ∈ q.indices := List.mem_map.mpr ⟨(i, l), Slots.mem_items.mpr hl, rfl⟩
    obtain ⟨m, ps, hm, -, sync⟩ := settled i (indices_congr same ▸ index)
    obtain ⟨-, hm⟩ := language_eq_ok_iff.mp hm
    rw [Int.toNat_natCast, hl] at hm
    cases hm
    exact sync
  · have again := morphLanguages_settled 0 settled
    have counts : p.indices.map q.wordCount = p.indices.map p.wordCount :=
      List.map_congr_left fun l _ => wordCount_congr same l
    rw [Nat.zero_add, counts, ← count, ← indices_congr same] at again
    exact again

end Project

/-! ## Sessions -/

/-- Only a change of plain rules can bring words out of sync. -/
theorem Language.Change.inSync {l m : Language} {limits : Limits} {part : Part}
    (h : l.Change limits part m) (hp : part ≠ .plainRules) (hl : l.InSync limits) :
    m.InSync limits := by
  cases h with
  | words ancestor vocab sync => exact inSync_withWords (sync hl) ancestor
  | plainRules kind old rules before each => exact absurd rfl hp
  | _ => exact fun w hw => ⟨(hl w hw).surface, (hl w hw).phonetic⟩

namespace Session

variable {s : Session} {m : Move}

/-- The project under edit is in sync. -/
def InSync (s : Session) : Prop := s.project.InSync s.config.limits

theorem InSync.make (hs : s.InSync) (plain : ∀ i, ¬m.Changes s i .plainRules)
    (undone : m = .abortBlock → ∀ p, s.snapshot = some p → p.InSync s.config.limits) :
    (m.make s).1.InSync := by
  rw [InSync, Move.config_make]
  rcases m.change_make s with change | ⟨abort, snapshot⟩
  · refine change.holds (fun _ => Language.inSync_named) ?_ hs
    intro i part l n changes change
    exact change.inSync fun same => plain i (same ▸ changes)
  · exact undone abort _ snapshot

theorem InSync.moved {moves : List Move} (hs : s.Holds fun _ l => l.InSync s.config.limits)
    (plain : ∀ m ∈ s.returned moves, ∀ i, ¬m.Touches i .plainRules) : (s.moved moves).InSync := by
  rw [InSync, config_moved]
  refine (hs.moved (fun _ => Language.inSync_named) ?_).project
  intro m i part l n touched made change
  refine change.inSync ?_
  rintro rfl
  rcases made with words | returned
  · cases words
  · exact plain m returned i touched

/-- Whether it returns or fails, a move that does not change plain rules keeps a project in sync, if
one that it restores was; so does a run of such moves. Computing all forms, if it returns, brings
any project in sync, counts the words of its live languages and changes nothing that is entered;
done again, it gives the same count and changes nothing. -/
theorem forms_in_sync (s : Session) :
    (∀ m : Move, (∀ i, ¬m.Changes s i .plainRules) → s.InSync →
      (m = .abortBlock → ∀ p, s.snapshot = some p → p.InSync s.config.limits) →
      (m.make s).1.InSync) ∧
    (∀ moves, (∀ m ∈ s.returned moves, ∀ i, ¬m.Touches i .plainRules) →
      (s.Holds fun _ l => l.InSync s.config.limits) → (s.moved moves).InSync) ∧
    ∀ q n, s.project.morphAll s.config none = (q, .ok n) →
      q.InSync s.config.limits ∧ n = s.project.placedWords.length ∧
        q.authored = s.project.authored ∧ q.morphAll s.config none = (q, .ok n) :=
  ⟨fun _ plain sync undone => sync.make plain undone, fun _ plain sync => InSync.moved sync plain,
    fun _ _ h => Project.morphAll_syncs h⟩

open Project in
/-- All forms are computed, which no word had before; then words are derived, in a block that is
undone. -/
theorem forms_in_sync_isles :
    ∃ q, (isles 0).morphAll .default none = (q, .ok 6) ∧ (ofProject q .default).InSync ∧
      (isles 0).placedWords.length = 6 ∧ q.authored = (isles 0).authored ∧
      q.morphAll .default none = (q, .ok 6) ∧
      ((Move.call (.derive (.int 1) (.int 0))).make (ofProject q .default)).1.InSync ∧
      ((ofProject q .default).moved
        [.openBlock, .call (.derive (.int 1) (.int 0)), .abortBlock]).InSync := by
  have returned : ((isles 0).morphAll .default none).2 = .ok 6 :=
    toOption_eq_some_iff.mp (by decide +kernel)
  obtain ⟨q, h⟩ : ∃ q, (isles 0).morphAll .default none = (q, .ok 6) := by
    rw [← returned]
    exact ⟨_, Prod.mk.eta.symm⟩
  obtain ⟨-, -, computed⟩ := forms_in_sync (ofProject (isles 0) .default)
  obtain ⟨sync, count, same, again⟩ := computed q 6 h
  obtain ⟨step, run, -⟩ := forms_in_sync (ofProject q .default)
  refine ⟨q, h, sync, count.symm, same, again, ?_, ?_⟩
  · refine step _ ?_ sync (by simp)
    rintro i ⟨⟨lang, subject, -⟩, -⟩
    cases subject
  · refine run _ ?_ ⟨sync, by simp [ofProject]⟩
    intro m hm i
    have made := (returned_sublist _ _).mem hm
    simp only [List.mem_cons, List.not_mem_nil, or_false] at made
    rcases made with rfl | rfl | rfl <;> simp [Move.Touches, Call.Touches, Call.subject?]

end Session
end Neogrammar
