import Mathlib.Data.List.InsertIdx
import Neogrammar.Proofs.Project.Derivation
import Neogrammar.Proofs.Project.Storable
import Neogrammar.Proofs.Substitution

/-!
# What operations keep

Operations whose texts are texts keep a project storable, whether they succeed or fail. Indices may
be of any kind.
-/
namespace Neogrammar

variable {G : Datum → Prop}

/-! ## Words -/

theorem Pipeline.isText_of_run {ps : Pipeline} {d e : Datum} (h : ps.run d = .ok e)
    (hd : d.isText = true) : e.isText = true := by
  obtain ⟨s, rfl⟩ := Datum.isText_iff.mp hd
  obtain ⟨t, rfl⟩ := run_text_ok h
  rfl

namespace Word

variable {w v : Word} {toSurface toPhonetic : Pipeline}

theorem storable_entered {mnemonic gloss note : Datum} {pos : Int} {ancestors : List Coordinate}
    (hm : mnemonic.isText = true) (hg : gloss.isText = true) (hn : note.isText = true) :
    (entered mnemonic gloss pos note ancestors).Storable :=
  ⟨hm, hg, hn, rfl, rfl⟩

theorem Storable.morphSurface (hw : w.Storable) (h : w.morphSurface toSurface = .ok v) :
    v.Storable := by
  obtain ⟨surface, hs, rfl⟩ := map_eq_ok_iff.mp h
  exact { hw with surface := Pipeline.isText_of_run hs hw.mnemonic }

theorem Storable.morphPhonetic (hw : w.Storable) (h : w.morphPhonetic toPhonetic = .ok v) :
    v.Storable := by
  obtain ⟨phonetic, hp, rfl⟩ := map_eq_ok_iff.mp h
  exact { hw with phonetic := Pipeline.isText_of_run hp hw.mnemonic }

theorem Storable.morph (hw : w.Storable) (h : w.morph toSurface toPhonetic = .ok v) :
    v.Storable := by
  obtain ⟨u, hu, hv⟩ := bind_eq_ok_iff.mp h
  exact (hw.morphSurface hu).morphPhonetic hv

theorem Storable.morphed (hw : w.Storable) : (w.morphed toSurface toPhonetic).1.Storable := by
  unfold Word.morphed
  cases hs : w.morphSurface toSurface with
  | error e => exact hw
  | ok u =>
    have hu := hw.morphSurface hs
    cases hp : u.morphPhonetic toPhonetic with
    | error e => simpa only [hp] using hu
    | ok v => simpa only [hp] using hu.morphPhonetic hp

theorem Storable.fuse (hw : w.Storable) (hv : v.Storable) : (w.fuse v).Storable :=
  { hw with surface := hv.surface, phonetic := hv.phonetic, mnemonic := hv.mnemonic }

end Word

/-- The texts of a change to a word are texts. -/
structure WordChange.Storable (c : WordChange) : Prop where
  mnemonic : ∀ d, c.mnemonic = some d → d.isText = true
  gloss : ∀ d, c.gloss = some d → d.isText = true
  note : ∀ d, c.note = some d → d.isText = true

theorem WordChange.Storable.apply {c : WordChange} {w : Word} (hc : c.Storable)
    (hw : w.Storable) : (c.apply w).Storable := by
  have given {d : Datum} {o : Option Datum} (ho : ∀ d, o = some d → d.isText = true)
      (hd : d.isText = true) : (o.getD d).isText = true := by
    cases o with
    | none => exact hd
    | some e => exact ho e rfl
  exact Word.storable_entered (given hc.mnemonic hw.mnemonic) (given hc.gloss hw.gloss)
    (given hc.note hw.note)

/-! ## Derived vocabularies -/

namespace Descent

variable {a : Int} {ps : Pipelines} {queue : List (Option Word)} {P Q : Word → Prop}

/-- Words are derived from those in the queue only, and what is left over is as it was. -/
theorem refresh_all {items fuses : List (Nat × Word)}
    {result : Except Error (List (Option Word))}
    (derives : ∀ source c w, Q source → descendant source c ps = .ok w → P w)
    (hq : ∀ w, some w ∈ queue → Q w) (h : refresh a ps items queue = (fuses, result)) :
    (∀ f ∈ fuses, P f.2) ∧ ∀ left, result = .ok left → ∀ w, some w ∈ left → Q w := by
  induction items generalizing queue fuses result with
  | nil =>
    cases h
    refine ⟨by simp, ?_⟩
    rintro left ⟨⟩
    exact hq
  | cons item items ih =>
    obtain ⟨i, w⟩ := item
    cases hc : coordinateInto? a w with
    | none =>
      rw [refresh_skip hc] at h
      exact ih hq h
    | some c =>
      cases hs : waiting? queue c.word with
      | none =>
        rw [refresh_ghost hc hs] at h
        cases h
        exact ⟨by simp, by simp⟩
      | some source =>
        have held : Q source := by
          have cell := Slots.find?_eq_some_iff.mp (waiting?_eq_some_iff.mp hs).2
          exact hq source (List.mem_of_getElem? cell)
        cases hd : descendant source c ps with
        | error e =>
          rw [refresh_error hc hs hd] at h
          cases h
          exact ⟨by simp, by simp⟩
        | ok derived =>
          rw [refresh_take hc hs hd] at h
          have left_over : ∀ w, some w ∈ queue.set c.word.toNat none → Q w := by
            intro w hw
            rcases List.mem_or_eq_of_mem_set hw with hw | hw
            · exact hq w hw
            · cases hw
          cases h
          obtain ⟨more, left⟩ := ih left_over rfl
          refine ⟨?_, left⟩
          rw [List.forall_mem_cons]
          exact ⟨derives source c derived held hd, more⟩

theorem inherit_all {i : Nat} {fresh : List Word}
    (derives : ∀ source c w, Q source → descendant source c ps = .ok w → P w)
    (hq : ∀ w, some w ∈ queue → Q w) (h : inherit a ps i queue = .ok fresh) :
    ∀ w ∈ fresh, P w := by
  induction queue generalizing i fresh with
  | nil =>
    cases h
    simp
  | cons cell queue ih =>
    have rest : ∀ w, some w ∈ queue → Q w := fun w hw => hq w (List.mem_cons_of_mem _ hw)
    cases cell with
    | none => exact ih rest h
    | some source =>
      obtain ⟨first, hf, h⟩ := bind_eq_ok_iff.mp h
      obtain ⟨more, hm, h⟩ := bind_eq_ok_iff.mp h
      cases h
      rw [List.forall_mem_cons]
      exact ⟨derives source _ first (hq source List.mem_cons_self) hf, ih rest hm⟩

theorem fuseAll_all {vocab : Slots Word} {fuses : List (Nat × Word)}
    (fuse : ∀ w v, P w → P v → P (w.fuse v)) (hv : vocab.All P) (hf : ∀ f ∈ fuses, P f.2) :
    (fuseAll vocab fuses).All P := by
  induction fuses generalizing vocab with
  | nil => exact hv
  | cons f fuses ih =>
    rw [List.forall_mem_cons] at hf
    refine ih (hv.put ?_) hf.2
    intro w hw
    obtain ⟨old, ho, rfl⟩ := Option.map_eq_some_iff.mp hw
    exact fuse old f.2 (hv.of_find? ho) hf.1

/-- A derivation touches the ancestor and the vocabulary of a language. What holds of all words of
the language and of what descends from words of the ancestor holds of the new vocabulary. -/
theorem derive_all {language ancestor : Language} (l a : Int) (transactional : Bool)
    (derives : ∀ source c w, Q source → descendant source c ps = .ok w → P w)
    (fuse : ∀ w v, P w → P v → P (w.fuse v)) (hl : language.vocab.All P)
    (ha : ancestor.vocab.All Q) :
    ∃ next vocab, (derive language ancestor l a ps transactional).1 =
      { language with ancestor := next, vocab } ∧ vocab.All P := by
  cases hr : refresh a ps language.vocab.items ancestor.vocab.cells with
  | mk fuses result =>
    obtain ⟨fused, left⟩ := refresh_all derives ha hr
    have partly := fuseAll_all fuse hl fused
    have failed : ∃ next vocab, (if transactional then language else
        { language with ancestor := some a, vocab := fuseAll language.vocab fuses }) =
          { language with ancestor := next, vocab } ∧ vocab.All P := by
      cases transactional with
      | true => exact ⟨_, _, rfl, hl⟩
      | false => exact ⟨_, _, rfl, partly⟩
    cases result with
    | error e => simpa only [derive_eq_error_of_refresh hr] using failed
    | ok queue =>
      cases hi : inherit a ps 0 queue with
      | error e => simpa only [derive_eq_error_of_inherit hr hi] using failed
      | ok fresh =>
        rw [derive_eq_ok hr hi]
        refine ⟨_, _, rfl, fun w hw => ?_⟩
        rcases List.mem_append.mp hw with hw | hw
        · exact partly w hw
        · obtain ⟨_, hv, he⟩ := List.mem_map.mp hw
          cases he
          exact inherit_all derives (left queue rfl) hi _ hv

theorem storable_descendant {source w : Word} {c : Coordinate} (hs : source.Storable)
    (h : descendant source c ps = .ok w) : w.Storable := by
  obtain ⟨mnemonic, hm, h⟩ := bind_eq_ok_iff.mp h
  exact (Word.storable_entered (Pipeline.isText_of_run hm hs.mnemonic) hs.gloss hs.note).morph h

theorem storable_derive {language ancestor : Language} {l : Int} {transactional : Bool}
    (hl : language.Storable G) (ha : ancestor.Storable G) :
    (derive language ancestor l a ps transactional).1.Storable G := by
  obtain ⟨next, vocab, derived, all⟩ := derive_all l a transactional
    (fun _ _ _ => storable_descendant) (fun _ _ => Word.Storable.fuse) hl.vocab ha.vocab
  rw [derived]
  exact { hl with vocab := all }

end Descent

/-! ## Rules and categories -/

namespace RuleList

variable {α : Type} {P : α → Prop} {rules after : List α} {index : Datum} {rule old : α}

theorem alter_all (h : alter rules index rule = .ok (old, after)) (hr : ∀ r ∈ rules, P r)
    (hn : P rule) : ∀ r ∈ after, P r := by
  obtain ⟨i, -, h⟩ := bind_eq_ok_iff.mp h
  split at h
  · cases h
    intro r hm
    rcases List.mem_or_eq_of_mem_set hm with hm | rfl
    · exact hr r hm
    · exact hn
  · cases h

theorem insert_all (h : insert rules index rule = .ok after) (hr : ∀ r ∈ rules, P r)
    (hn : P rule) : ∀ r ∈ after, P r := by
  obtain ⟨i, -, h⟩ := bind_eq_ok_iff.mp h
  cases h
  intro r hm
  rcases List.eq_or_mem_of_mem_insertIdx hm with rfl | hm
  · exact hn
  · exact hr r hm

theorem remove_all (h : remove rules index = .ok (old, after)) (hr : ∀ r ∈ rules, P r) :
    ∀ r ∈ after, P r := by
  obtain ⟨i, -, h⟩ := bind_eq_ok_iff.mp h
  split at h
  · cases h
    exact fun r hm => hr r (List.mem_of_mem_eraseIdx hm)
  · cases h

theorem append_all (hr : ∀ r ∈ rules, P r) (hn : P rule) : ∀ r ∈ rules ++ [rule], P r := by
  rw [List.forall_mem_append]
  exact ⟨hr, by simpa using hn⟩

end RuleList

namespace SoundChanges

variable {c after : SoundChanges} {s old : SoundChange} {index key content : Datum} {i : Nat}

theorem Storable.addCategory (hc : c.Storable G) (h : c.addCategory key content = .ok after)
    (kind : ∀ graphemes, content.elements? = some graphemes →
      ∀ g ∈ graphemes, g.truthy = true → G g) : after.Storable G := by
  obtain ⟨t, ht, h⟩ := bind_eq_ok_iff.mp h
  cases h
  exact ⟨hc.categories.add ht kind, hc.rules⟩

theorem Storable.removeCategory {graphemes : List Datum} (hc : c.Storable G)
    (h : c.removeCategory key = .ok (graphemes, after)) : after.Storable G := by
  obtain ⟨⟨_, t⟩, ht, h⟩ := bind_eq_ok_iff.mp h
  cases h
  exact ⟨hc.categories.remove ht, hc.rules⟩

section

variable {P : SoundChange → Prop}

theorem addRule_all (h : c.addRule s = .ok (i, after)) (hr : ∀ r ∈ c.rules, P r) (hs : P s) :
    after.categories = c.categories ∧ ∀ r ∈ after.rules, P r := by
  obtain ⟨_, -, h⟩ := bind_eq_ok_iff.mp h
  cases h
  exact ⟨rfl, RuleList.append_all hr hs⟩

theorem alterRule_all (h : c.alterRule index s = .ok (old, after)) (hr : ∀ r ∈ c.rules, P r)
    (hs : P s) : after.categories = c.categories ∧ ∀ r ∈ after.rules, P r := by
  obtain ⟨_, -, h⟩ := bind_eq_ok_iff.mp h
  obtain ⟨⟨_, rules⟩, ha, h⟩ := bind_eq_ok_iff.mp h
  cases h
  exact ⟨rfl, RuleList.alter_all ha hr hs⟩

theorem insertRule_all (h : c.insertRule index s = .ok after) (hr : ∀ r ∈ c.rules, P r)
    (hs : P s) : after.categories = c.categories ∧ ∀ r ∈ after.rules, P r := by
  obtain ⟨_, -, h⟩ := bind_eq_ok_iff.mp h
  obtain ⟨rules, hi, h⟩ := bind_eq_ok_iff.mp h
  cases h
  exact ⟨rfl, RuleList.insert_all hi hr hs⟩

theorem removeRule_all (h : c.removeRule index = .ok (old, after)) (hr : ∀ r ∈ c.rules, P r) :
    after.categories = c.categories ∧ ∀ r ∈ after.rules, P r := by
  obtain ⟨⟨_, rules⟩, ha, h⟩ := bind_eq_ok_iff.mp h
  cases h
  exact ⟨rfl, RuleList.remove_all ha hr⟩

end

/-- Other rules for the same categories. -/
theorem Storable.withRules (hc : c.Storable G)
    (h : after.categories = c.categories ∧ ∀ r ∈ after.rules, r.Storable) : after.Storable G :=
  ⟨h.1 ▸ hc.categories, h.2⟩

theorem Storable.addRule (hc : c.Storable G) (hs : s.Storable)
    (h : c.addRule s = .ok (i, after)) : after.Storable G :=
  hc.withRules (addRule_all h hc.rules hs)

theorem Storable.alterRule (hc : c.Storable G) (hs : s.Storable)
    (h : c.alterRule index s = .ok (old, after)) : after.Storable G :=
  hc.withRules (alterRule_all h hc.rules hs)

theorem Storable.insertRule (hc : c.Storable G) (hs : s.Storable)
    (h : c.insertRule index s = .ok after) : after.Storable G :=
  hc.withRules (insertRule_all h hc.rules hs)

theorem Storable.removeRule (hc : c.Storable G) (h : c.removeRule index = .ok (old, after)) :
    after.Storable G :=
  hc.withRules (removeRule_all h hc.rules)

end SoundChanges

/-! ## Languages -/

namespace Language

variable {l after : Language} {kind : RuleKind} {rule : Replace} {index pattern replacement : Datum}

theorem storable_named {name : Datum} (h : name.isText = true) : (named name).Storable G :=
  ⟨h, Slots.all_empty, by simp [named], by simp [named],
    ⟨Categories.storable_empty, by simp [named, SoundChanges.empty]⟩⟩

theorem compiles_of_checkRule (h : checkRule pattern replacement = .ok rule) : rule.Compiles := by
  obtain ⟨r, -, h⟩ := bind_eq_ok_iff.mp h
  obtain ⟨s, hs, h⟩ := bind_eq_ok_iff.mp h
  cases h
  exact ⟨s, hs⟩

theorem Storable.compiles_rules {rules : List Replace} (hl : l.Storable G)
    (h : l.rules kind = .ok rules) : ∀ r ∈ rules, r.Compiles := by
  cases kind <;> cases h
  · exact hl.surfaceRules
  · exact hl.phoneticRules

theorem Storable.withRules {rules : List Replace} (hl : l.Storable G)
    (hr : ∀ r ∈ rules, r.Compiles) : (l.withRules kind rules).Storable G := by
  cases kind with
  | surface => exact { hl with surfaceRules := hr }
  | phonetic => exact { hl with phoneticRules := hr }
  | soundChange => exact hl

theorem Storable.addRule {i : Nat} (hl : l.Storable G)
    (h : l.addRule kind pattern replacement = .ok (i, after)) : after.Storable G := by
  obtain ⟨rule, hc, h⟩ := bind_eq_ok_iff.mp h
  obtain ⟨rules, hr, h⟩ := bind_eq_ok_iff.mp h
  cases h
  exact hl.withRules (RuleList.append_all (hl.compiles_rules hr) (compiles_of_checkRule hc))

theorem Storable.alterRule (hl : l.Storable G)
    (h : l.alterRule kind index pattern replacement = .ok after) : after.Storable G := by
  obtain ⟨rule, hc, h⟩ := bind_eq_ok_iff.mp h
  obtain ⟨rules, hr, h⟩ := bind_eq_ok_iff.mp h
  obtain ⟨⟨_, altered⟩, ha, h⟩ := bind_eq_ok_iff.mp h
  cases h
  exact hl.withRules (RuleList.alter_all ha (hl.compiles_rules hr) (compiles_of_checkRule hc))

theorem Storable.insertRule (hl : l.Storable G)
    (h : l.insertRule kind index pattern replacement = .ok after) : after.Storable G := by
  obtain ⟨rule, hc, h⟩ := bind_eq_ok_iff.mp h
  obtain ⟨rules, hr, h⟩ := bind_eq_ok_iff.mp h
  obtain ⟨longer, hi, h⟩ := bind_eq_ok_iff.mp h
  cases h
  exact hl.withRules (RuleList.insert_all hi (hl.compiles_rules hr) (compiles_of_checkRule hc))

theorem Storable.removeRule (hl : l.Storable G) (h : l.removeRule kind index = .ok after) :
    after.Storable G := by
  obtain ⟨rules, hr, h⟩ := bind_eq_ok_iff.mp h
  obtain ⟨⟨_, shorter⟩, ha, h⟩ := bind_eq_ok_iff.mp h
  cases h
  exact hl.withRules (RuleList.remove_all ha (hl.compiles_rules hr))

/-- What holds of all words, also when their forms are computed, holds after computing them. -/
theorem morphCells_all {P : Word → Prop} {ps : Pipelines} {cells : List (Option Word)}
    (morphed : ∀ w : Word, P w → P (w.morphed ps.toSurface ps.toPhonetic).1)
    (h : ∀ w, some w ∈ cells → P w) : ∀ w, some w ∈ (morphCells ps cells).1 → P w := by
  induction cells with
  | nil => exact h
  | cons cell cells ih =>
    have rest := ih fun w hw => h w (List.mem_cons_of_mem _ hw)
    cases cell with
    | none =>
      intro w hw
      rcases List.mem_cons.mp hw with hw | hw
      · cases hw
      · exact rest w hw
    | some v =>
      have first : P (v.morphed ps.toSurface ps.toPhonetic).1 :=
        morphed v (h v List.mem_cons_self)
      intro w hw
      rw [morphCells] at hw
      split at hw
      all_goals
        rename_i hv
        rw [hv] at first
        rcases List.mem_cons.mp hw with hw | hw
        · cases hw
          exact first
      · exact h w (List.mem_cons_of_mem _ hw)
      · exact rest w hw

theorem Storable.morphAll {ps : Pipelines} (hl : l.Storable G) : (l.morphAll ps).1.Storable G :=
  { hl with vocab := morphCells_all (fun _ hw => hw.morphed) hl.vocab }

end Language

/-! ## Projects -/

namespace Project

variable {p q : Project} {c : Config} {lang : Int} {index name abbr : Datum}

theorem storable_empty : empty.Storable G := ⟨Slots.all_empty, Slots.all_empty⟩

section

variable {P : Language → Prop}

theorem withLanguage_all {l : Language} (hp : p.languages.All P) (hl : P l) :
    (p.withLanguage lang l).languages.All P :=
  hp.put fun _ h => Option.some.inj h ▸ hl

/-- Changing one language keeps what holds of all of them if the change keeps it. -/
theorem updateLanguage_all {f : Language → Except Error Language}
    (h : p.updateLanguage lang f = .ok q) (hp : p.languages.All P)
    (keeps : ∀ l m, P l → f l = .ok m → P m) : q.languages.All P := by
  obtain ⟨l, hl, h⟩ := bind_eq_ok_iff.mp h
  obtain ⟨m, hm, h⟩ := bind_eq_ok_iff.mp h
  cases h
  exact withLanguage_all hp (keeps l m (hp.of_get hl) hm)

theorem modifyLanguage_all {α : Type} {a : α} {f : Language → Except Error (α × Language)}
    (h : p.modifyLanguage lang f = .ok (a, q)) (hp : p.languages.All P)
    (keeps : ∀ l a m, P l → f l = .ok (a, m) → P m) : q.languages.All P := by
  obtain ⟨l, hl, h⟩ := bind_eq_ok_iff.mp h
  obtain ⟨⟨b, m⟩, hm, h⟩ := bind_eq_ok_iff.mp h
  cases h
  exact withLanguage_all hp (keeps l _ m (hp.of_get hl) hm)

end

theorem updateLanguage_partsOfSpeech {f : Language → Except Error Language}
    (h : p.updateLanguage lang f = .ok q) : q.partsOfSpeech = p.partsOfSpeech := by
  obtain ⟨l, -, h⟩ := bind_eq_ok_iff.mp h
  obtain ⟨m, -, h⟩ := bind_eq_ok_iff.mp h
  cases h
  rfl

theorem modifyLanguage_partsOfSpeech {α : Type} {a : α}
    {f : Language → Except Error (α × Language)} (h : p.modifyLanguage lang f = .ok (a, q)) :
    q.partsOfSpeech = p.partsOfSpeech := by
  obtain ⟨l, -, h⟩ := bind_eq_ok_iff.mp h
  obtain ⟨m, -, h⟩ := bind_eq_ok_iff.mp h
  cases h
  rfl

theorem Storable.language {l : Language} (hp : p.Storable G) (h : p.language lang = .ok l) :
    l.Storable G :=
  hp.languages.of_get h

theorem Storable.withLanguage {l : Language} (hp : p.Storable G) (hl : l.Storable G) :
    (p.withLanguage lang l).Storable G :=
  { hp with languages := withLanguage_all hp.languages hl }

/-- Changing one language keeps a project storable if the change keeps languages so. -/
theorem Storable.updateLanguage {f : Language → Except Error Language} (hp : p.Storable G)
    (h : p.updateLanguage lang f = .ok q)
    (keeps : ∀ l m, l.Storable G → f l = .ok m → m.Storable G) : q.Storable G :=
  ⟨updateLanguage_all h hp.languages keeps, updateLanguage_partsOfSpeech h ▸ hp.partsOfSpeech⟩

theorem Storable.modifyLanguage {α : Type} {a : α} {f : Language → Except Error (α × Language)}
    (hp : p.Storable G) (h : p.modifyLanguage lang f = .ok (a, q))
    (keeps : ∀ l a m, l.Storable G → f l = .ok (a, m) → m.Storable G) : q.Storable G :=
  ⟨modifyLanguage_all h hp.languages keeps, modifyLanguage_partsOfSpeech h ▸ hp.partsOfSpeech⟩

theorem Storable.addLanguage (hp : p.Storable G) (hn : name.isText = true) :
    (p.addLanguage name).2.Storable G :=
  { hp with languages := hp.languages.push (Language.storable_named hn) }

theorem Storable.renameLanguage (hp : p.Storable G) (hn : name.isText = true)
    (h : p.renameLanguage lang name = .ok q) : q.Storable G := by
  refine hp.updateLanguage h ?_
  rintro l m hl ⟨⟩
  exact { hl with name := hn }

theorem Storable.setAncestor {ancestor : Option Int} (hp : p.Storable G)
    (h : p.setAncestor lang ancestor = .ok q) : q.Storable G := by
  refine hp.updateLanguage h fun l m hl hm => ?_
  split at hm
  · cases hm
    exact { hl with }
  · split at hm
    · cases hm
    · obtain ⟨_, -, hm⟩ := bind_eq_ok_iff.mp hm
      cases hm
      exact { hl with }

theorem Storable.removeLanguage (hp : p.Storable G) (h : p.removeLanguage lang = .ok q) :
    q.Storable G := by
  obtain ⟨⟨_, languages⟩, hr, h⟩ := bind_eq_ok_iff.mp h
  cases h
  exact { hp with languages := hp.languages.remove hr }

theorem Storable.addPos (hp : p.Storable G) (hn : name.isText = true) (ha : abbr.isText = true) :
    (p.addPos name abbr).2.Storable G :=
  { hp with partsOfSpeech := hp.partsOfSpeech.push ⟨hn, ha⟩ }

theorem Storable.alterPos (hp : p.Storable G) (hn : name.isText = true) (ha : abbr.isText = true)
    (h : p.alterPos index name abbr = .ok q) : q.Storable G := by
  obtain ⟨_, hs, h⟩ := bind_eq_ok_iff.mp h
  cases h
  exact { hp with partsOfSpeech := hp.partsOfSpeech.set ⟨hn, ha⟩ hs }

theorem Storable.removePos (hp : p.Storable G) (h : p.removePos index = .ok q) : q.Storable G := by
  obtain ⟨⟨_, partsOfSpeech⟩, hr, h⟩ := bind_eq_ok_iff.mp h
  cases h
  exact { hp with partsOfSpeech := hp.partsOfSpeech.remove hr }

theorem Storable.addWord {word : Word} {i : Nat} (hp : p.Storable G) (hw : word.Storable)
    (h : p.addWord c lang word = .ok (i, q)) : q.Storable G := by
  refine hp.modifyLanguage h fun l i m hl hm => ?_
  obtain ⟨ps, -, hm⟩ := bind_eq_ok_iff.mp hm
  obtain ⟨w, hv, hm⟩ := bind_eq_ok_iff.mp hm
  cases hm
  exact { hl with vocab := hl.vocab.push (hw.morph hv) }

theorem Storable.alterWord {change : WordChange} {w : Word} (hp : p.Storable G)
    (hc : change.Storable) (h : p.alterWord c lang index change = .ok (w, q)) : q.Storable G := by
  refine hp.modifyLanguage h fun l v m hl hm => ?_
  obtain ⟨old, ho, hm⟩ := bind_eq_ok_iff.mp hm
  obtain ⟨ps, -, hm⟩ := bind_eq_ok_iff.mp hm
  obtain ⟨new, hn, hm⟩ := bind_eq_ok_iff.mp hm
  obtain ⟨vocab, hv, hm⟩ := bind_eq_ok_iff.mp hm
  cases hm
  exact { hl with vocab := hl.vocab.set ((hc.apply (hl.vocab.of_get ho)).morph hn) hv }

theorem Storable.removeWord (hp : p.Storable G) (h : p.removeWord lang index = .ok q) :
    q.Storable G := by
  refine hp.updateLanguage h fun l m hl hm => ?_
  obtain ⟨⟨_, vocab⟩, hv, hm⟩ := bind_eq_ok_iff.mp hm
  cases hm
  exact { hl with vocab := hl.vocab.remove hv }

theorem Storable.morphLanguage (hp : p.Storable G) : (p.morphLanguage c lang).1.Storable G := by
  unfold Project.morphLanguage
  cases hl : p.language lang with
  | error e => exact hp
  | ok l =>
    cases hps : l.pipelines c.limits with
    | error e => simpa only [hps] using hp
    | ok ps => simpa only [hps] using hp.withLanguage (hp.language hl).morphAll

/-- What computing the forms of one language keeps, computing those of several keeps. -/
theorem morphLanguages_keeps {Q : Project → Prop}
    (step : ∀ p lang, Q p → Q (p.morphLanguage c lang).1) (count : Nat) (langs : List Int)
    (hp : Q p) : Q (morphLanguages c p count langs).1 := by
  induction langs generalizing p count with
  | nil => exact hp
  | cons lang langs ih =>
    have first := step p lang hp
    rw [Project.morphLanguages]
    split
    all_goals
      rename_i hm
      rw [hm] at first
    · exact first
    · exact ih _ first

theorem morphAll_keeps {Q : Project → Prop} (step : ∀ p lang, Q p → Q (p.morphLanguage c lang).1)
    (langs : Option Int) (hp : Q p) : Q (p.morphAll c langs).1 := by
  cases langs <;> exact morphLanguages_keeps step _ _ hp

theorem Storable.morphAll {langs : Option Int} (hp : p.Storable G) :
    (p.morphAll c langs).1.Storable G :=
  morphAll_keeps (fun _ _ h => h.morphLanguage) langs hp

theorem Storable.addRule {kind : RuleKind} {pattern replacement : Datum} {i : Nat}
    (hp : p.Storable G) (h : p.addRule lang kind pattern replacement = .ok (i, q)) : q.Storable G :=
  hp.modifyLanguage h fun _ _ _ hl => hl.addRule

theorem Storable.alterRule {kind : RuleKind} {pattern replacement : Datum} (hp : p.Storable G)
    (h : p.alterRule lang kind index pattern replacement = .ok q) : q.Storable G :=
  hp.updateLanguage h fun _ _ hl => hl.alterRule

theorem Storable.insertRule {kind : RuleKind} {pattern replacement : Datum} (hp : p.Storable G)
    (h : p.insertRule lang kind index pattern replacement = .ok q) : q.Storable G :=
  hp.updateLanguage h fun _ _ hl => hl.insertRule

theorem Storable.removeRule {kind : RuleKind} (hp : p.Storable G)
    (h : p.removeRule lang kind index = .ok q) : q.Storable G :=
  hp.updateLanguage h fun _ _ hl => hl.removeRule

theorem Storable.addCategory {key content : Datum} (hp : p.Storable G)
    (h : p.addCategory lang key content = .ok q)
    (kind : ∀ graphemes, content.elements? = some graphemes →
      ∀ g ∈ graphemes, g.truthy = true → G g) : q.Storable G := by
  refine hp.updateLanguage h fun l m hl hm => ?_
  obtain ⟨changes, hc, hm⟩ := bind_eq_ok_iff.mp hm
  cases hm
  exact { hl with soundChanges := hl.soundChanges.addCategory hc kind }

theorem Storable.removeCategory {key : Datum} (hp : p.Storable G)
    (h : p.removeCategory lang key = .ok q) : q.Storable G := by
  refine hp.updateLanguage h fun l m hl hm => ?_
  obtain ⟨⟨_, changes⟩, hc, hm⟩ := bind_eq_ok_iff.mp hm
  cases hm
  exact { hl with soundChanges := hl.soundChanges.removeCategory hc }

section

variable {target replacement environment : Datum}

theorem storable_soundChange {s : SoundChange} (ht : target.isText = true)
    (hr : replacement.isText = true) (h : soundChange target replacement environment = .ok s) :
    s.Storable := by
  obtain ⟨_, -, h⟩ := bind_eq_ok_iff.mp h
  obtain ⟨_, -, h⟩ := bind_eq_ok_iff.mp h
  obtain ⟨_, -, h⟩ := bind_eq_ok_iff.mp h
  cases environment <;> cases h
  exact ⟨ht, hr⟩

theorem Storable.addSoundChange {i : Nat} (hp : p.Storable G) (ht : target.isText = true)
    (hr : replacement.isText = true)
    (h : p.addSoundChange lang target replacement environment = .ok (i, q)) : q.Storable G := by
  refine hp.modifyLanguage h fun l i m hl hm => ?_
  obtain ⟨s, hs, hm⟩ := bind_eq_ok_iff.mp hm
  obtain ⟨⟨_, changes⟩, hc, hm⟩ := bind_eq_ok_iff.mp hm
  cases hm
  exact { hl with soundChanges := hl.soundChanges.addRule (storable_soundChange ht hr hs) hc }

theorem Storable.alterSoundChange (hp : p.Storable G) (ht : target.isText = true)
    (hr : replacement.isText = true)
    (h : p.alterSoundChange lang index target replacement environment = .ok q) : q.Storable G := by
  refine hp.updateLanguage h fun l m hl hm => ?_
  obtain ⟨s, hs, hm⟩ := bind_eq_ok_iff.mp hm
  obtain ⟨⟨_, changes⟩, hc, hm⟩ := bind_eq_ok_iff.mp hm
  cases hm
  exact { hl with soundChanges := hl.soundChanges.alterRule (storable_soundChange ht hr hs) hc }

theorem Storable.insertSoundChange (hp : p.Storable G) (ht : target.isText = true)
    (hr : replacement.isText = true)
    (h : p.insertSoundChange lang index target replacement environment = .ok q) : q.Storable G := by
  refine hp.updateLanguage h fun l m hl hm => ?_
  obtain ⟨s, hs, hm⟩ := bind_eq_ok_iff.mp hm
  obtain ⟨changes, hc, hm⟩ := bind_eq_ok_iff.mp hm
  cases hm
  exact { hl with soundChanges := hl.soundChanges.insertRule (storable_soundChange ht hr hs) hc }

end

theorem Storable.removeSoundChange (hp : p.Storable G)
    (h : p.removeSoundChange lang index = .ok q) : q.Storable G := by
  refine hp.updateLanguage h fun l m hl hm => ?_
  obtain ⟨⟨_, changes⟩, hc, hm⟩ := bind_eq_ok_iff.mp hm
  cases hm
  exact { hl with soundChanges := hl.soundChanges.removeRule hc }

theorem Storable.derive {ancestor : Int} (hp : p.Storable G) :
    (p.derive c lang ancestor).1.Storable G := by
  unfold Project.derive
  cases hd : p.derivation c lang ancestor with
  | error e => exact hp
  | ok parts =>
    obtain ⟨l, a, ps⟩ := parts
    obtain ⟨-, hl, ha, -⟩ := derivation_eq_ok_iff.mp hd
    exact hp.withLanguage (Descent.storable_derive (hp.language hl) (hp.language ha))

end Project
end Neogrammar
