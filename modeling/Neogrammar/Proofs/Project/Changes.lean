import Neogrammar.Proofs.Project.Calls
import Neogrammar.Proofs.Project.Forms
import Neogrammar.Proofs.SoundChange.Limits

/-!
# What a move may change

A move is a call, a recomputation of forms, or a step into or out of a block. Whatever it comes to,
it adds and removes languages and parts of speech, or changes the one part of one language that it
is about. What is said here of such changes is all that invariants of sessions need to know of the
operations.
-/
namespace Neogrammar

/-! ## Changes of a language -/

/-- The part of a language that an operation is about. -/
inductive Part where
  /-- Its name, or its ancestor. -/
  | header
  | words
  | plainRules
  | categories
  /-- Its sound changes, of which none is new. -/
  | soundChanges
  /-- Its sound changes, to which one is added. -/
  | newSoundChanges
  deriving DecidableEq

/-- What an operation makes of a language, by the part that it is about. -/
inductive Language.Change (limits : Limits) (l : Language) : Part → Language → Prop
  | header (name : Datum) (ancestor : Option Int) : Change limits l .header { l with name, ancestor }
  /-- A derivation sets the ancestor too. -/
  | words (ancestor : Option Int) (vocab : Slots Word)
      (sync : l.InSync limits → vocab.All (l.Forms limits)) :
      Change limits l .words { l with ancestor, vocab }
  | plainRules (kind : RuleKind) (old rules : List Replace) (before : l.rules kind = .ok old)
      (each : ∀ r ∈ rules, r ∈ old ∨ r.Compiles) :
      Change limits l .plainRules (l.withRules kind rules)
  | categories (t : Categories) :
      Change limits l .categories { l with soundChanges := { l.soundChanges with categories := t } }
  | soundChanges (rules : List SoundChange)
      (each : ∀ s ∈ rules, s ∈ l.soundChanges.rules ∨ l.soundChanges.Accepts s)
      (shorter : rules.length ≤ l.soundChanges.rules.length) :
      Change limits l .soundChanges { l with soundChanges := { l.soundChanges with rules } }
  | newSoundChanges (rules : List SoundChange)
      (each : ∀ s ∈ rules, s ∈ l.soundChanges.rules ∨ l.soundChanges.Accepts s) :
      Change limits l .newSoundChanges { l with soundChanges := { l.soundChanges with rules } }

namespace RuleList

variable {α : Type} {rules after : List α} {index : Datum} {rule old : α}

theorem length_alter (h : alter rules index rule = .ok (old, after)) :
    after.length = rules.length := by
  obtain ⟨i, -, h⟩ := bind_eq_ok_iff.mp h
  split at h
  · cases h
    exact List.length_set
  · cases h

theorem length_remove_le (h : remove rules index = .ok (old, after)) :
    after.length ≤ rules.length := by
  obtain ⟨i, -, h⟩ := bind_eq_ok_iff.mp h
  split at h
  · cases h
    exact List.length_eraseIdx_le rules i
  · cases h

end RuleList

namespace Language

variable {l m : Language} {limits : Limits} {ps : Pipelines} {kind : RuleKind}
  {index pattern replacement : Datum} {w : Word} {i : Nat}

/-! ### Words -/

theorem change_addWord {v : Word} (h : l.pipelines limits = .ok ps)
    (hv : w.morph ps.toSurface ps.toPhonetic = .ok v) :
    l.Change limits .words { l with vocab := l.vocab.push (some v) } :=
  .words l.ancestor _ fun sync => sync.push (forms_of_morph h hv)

theorem change_alterWord {v : Word} {vocab : Slots Word} (h : l.pipelines limits = .ok ps)
    (hv : w.morph ps.toSurface ps.toPhonetic = .ok v) (hs : l.vocab.set index (some v) = .ok vocab) :
    l.Change limits .words { l with vocab } :=
  .words l.ancestor _ fun sync => sync.set (forms_of_morph h hv) hs

theorem change_removeWord {old : Option Word} {vocab : Slots Word}
    (h : l.vocab.remove index = .ok (old, vocab)) : l.Change limits .words { l with vocab } :=
  .words l.ancestor _ fun sync => sync.remove h

theorem change_morphAll (h : l.pipelines limits = .ok ps) :
    l.Change limits .words (l.morphAll ps).1 :=
  .words l.ancestor _ fun sync => morphCells_all (fun _ hw => (hw.morphed h).symm ▸ hw) sync

theorem change_derive {ancestor : Language} {n a : Int} {transactional : Bool}
    (h : l.pipelines limits = .ok ps) :
    l.Change limits .words (Descent.derive l ancestor n a ps transactional).1 := by
  obtain ⟨next, vocab, derived, sync⟩ := derive_sync h
  rw [derived]
  exact .words next vocab sync

/-! ### Plain rules -/

theorem change_addRule (h : l.addRule kind pattern replacement = .ok (i, m)) :
    l.Change limits .plainRules m := by
  obtain ⟨rule, hc, h⟩ := bind_eq_ok_iff.mp h
  obtain ⟨rules, hr, h⟩ := bind_eq_ok_iff.mp h
  cases h
  exact .plainRules kind rules _ hr
    (RuleList.append_all (fun _ hm => .inl hm) (.inr (compiles_of_checkRule hc)))

theorem change_alterRule (h : l.alterRule kind index pattern replacement = .ok m) :
    l.Change limits .plainRules m := by
  obtain ⟨rule, hc, h⟩ := bind_eq_ok_iff.mp h
  obtain ⟨rules, hr, h⟩ := bind_eq_ok_iff.mp h
  obtain ⟨⟨_, altered⟩, ha, h⟩ := bind_eq_ok_iff.mp h
  cases h
  exact .plainRules kind rules _ hr
    (RuleList.alter_all ha (fun _ hm => .inl hm) (.inr (compiles_of_checkRule hc)))

theorem change_insertRule (h : l.insertRule kind index pattern replacement = .ok m) :
    l.Change limits .plainRules m := by
  obtain ⟨rule, hc, h⟩ := bind_eq_ok_iff.mp h
  obtain ⟨rules, hr, h⟩ := bind_eq_ok_iff.mp h
  obtain ⟨longer, hi, h⟩ := bind_eq_ok_iff.mp h
  cases h
  exact .plainRules kind rules _ hr
    (RuleList.insert_all hi (fun _ hm => .inl hm) (.inr (compiles_of_checkRule hc)))

theorem change_removeRule (h : l.removeRule kind index = .ok m) : l.Change limits .plainRules m := by
  obtain ⟨rules, hr, h⟩ := bind_eq_ok_iff.mp h
  obtain ⟨⟨_, shorter⟩, ha, h⟩ := bind_eq_ok_iff.mp h
  cases h
  exact .plainRules kind rules _ hr (RuleList.remove_all ha fun _ hm => .inl hm)

/-! ### Sound changes -/

section

variable {c : SoundChanges} {s old : SoundChange}

theorem change_addSoundChange (h : l.soundChanges.addRule s = .ok (i, c)) :
    l.Change limits .newSoundChanges { l with soundChanges := c } := by
  obtain ⟨ps, hc, h⟩ := bind_eq_ok_iff.mp h
  cases h
  exact .newSoundChanges _ (RuleList.append_all (fun _ hm => .inl hm) (.inr ⟨ps, hc⟩))

theorem change_alterSoundChange (h : l.soundChanges.alterRule index s = .ok (old, c)) :
    l.Change limits .soundChanges { l with soundChanges := c } := by
  obtain ⟨ps, hc, h⟩ := bind_eq_ok_iff.mp h
  obtain ⟨⟨_, rules⟩, ha, h⟩ := bind_eq_ok_iff.mp h
  cases h
  exact .soundChanges _ (RuleList.alter_all ha (fun _ hm => .inl hm) (.inr ⟨ps, hc⟩))
    (RuleList.length_alter ha).le

theorem change_insertSoundChange (h : l.soundChanges.insertRule index s = .ok c) :
    l.Change limits .newSoundChanges { l with soundChanges := c } := by
  obtain ⟨ps, hc, h⟩ := bind_eq_ok_iff.mp h
  obtain ⟨rules, hi, h⟩ := bind_eq_ok_iff.mp h
  cases h
  exact .newSoundChanges _ (RuleList.insert_all hi (fun _ hm => .inl hm) (.inr ⟨ps, hc⟩))

theorem change_removeSoundChange (h : l.soundChanges.removeRule index = .ok (old, c)) :
    l.Change limits .soundChanges { l with soundChanges := c } := by
  obtain ⟨⟨_, rules⟩, ha, h⟩ := bind_eq_ok_iff.mp h
  cases h
  exact .soundChanges _ (RuleList.remove_all ha fun _ hm => .inl hm) (RuleList.length_remove_le ha)

end

end Language

/-! ## Changes of a project -/

namespace Project

/-- What operations make of a project, where `touches` says of which languages they may change which
parts. -/
inductive Change (limits : Limits) (touches : Nat → Part → Prop) : Project → Project → Prop
  | refl (p : Project) : Change limits touches p p
  | trans {p q r : Project} (first : Change limits touches p q) (more : Change limits touches q r) :
      Change limits touches p r
  | partsOfSpeech (p : Project) (partsOfSpeech : Slots PartOfSpeech) :
      Change limits touches p { p with partsOfSpeech }
  | addLanguage (p : Project) (name : Datum) : Change limits touches p (p.addLanguage name).2
  | removeLanguage (p : Project) (i : Nat) :
      Change limits touches p { p with languages := p.languages.put i none }
  | language {p : Project} {i : Nat} {l m : Language} {part : Part}
      (live : p.languages.find? i = some l) (touched : touches i part)
      (change : l.Change limits part m) :
      Change limits touches p { p with languages := p.languages.put i (some m) }

variable {limits : Limits} {touches others : Nat → Part → Prop} {p q : Project} {n : Int} {i : Nat}
  {part : Part}

theorem Change.mono (h : Change limits touches p q) (more : ∀ i part, touches i part → others i part) :
    Change limits others p q := by
  induction h with
  | refl p => exact .refl p
  | trans _ _ first rest => exact .trans first rest
  | partsOfSpeech p parts => exact .partsOfSpeech p parts
  | addLanguage p name => exact .addLanguage p name
  | removeLanguage p i => exact .removeLanguage p i
  | language live touched change => exact .language live (more _ _ touched) change

/-- Slots are never given up but by undoing a block. -/
theorem Change.size_le (h : Change limits touches p q) : p.languages.size ≤ q.languages.size := by
  induction h with
  | refl p => exact le_rfl
  | trans _ _ first rest => exact first.trans rest
  | partsOfSpeech p parts => exact le_rfl
  | addLanguage p name => exact (Nat.le_succ _).trans (Slots.size_push _ _).ge
  | removeLanguage p i => exact (Slots.size_put _ _ _).ge
  | language live touched change => exact (Slots.size_put _ _ _).ge

/-- Every live language has the property that belongs to its index. -/
def Holds (P : Nat → Language → Prop) (p : Project) : Prop :=
  ∀ i l, p.languages.find? i = some l → P i l

/-- What new languages have and no change of a part that is touched takes away is kept. -/
theorem Change.holds {P : Nat → Language → Prop} (h : Change limits touches p q)
    (named : ∀ i name, P i (.named name))
    (keeps : ∀ i part l m, touches i part → l.Change limits part m → P i l → P i m)
    (hp : p.Holds P) : q.Holds P := by
  induction h with
  | refl p => exact hp
  | trans _ _ first rest => exact rest (first hp)
  | partsOfSpeech p parts => exact hp
  | addLanguage p name =>
    intro i l hl
    rcases Slots.find?_push_cases hl with old | ⟨-, new⟩
    · exact hp i l old
    · cases new
      exact named i name
  | removeLanguage p i =>
    intro j l hl
    rcases Slots.find?_put_cases hl with ⟨-, old⟩ | ⟨-, gone⟩
    · exact hp j l old
    · cases gone
  | language live touched change =>
    intro j l hl
    rcases Slots.find?_put_cases hl with ⟨-, old⟩ | ⟨rfl, new⟩
    · exact hp j l old
    · cases new
      exact keeps _ _ _ _ touched change (hp _ _ live)

/-! ### Operations -/

theorem change_withLanguage {l m : Language} (hl : p.language n = .ok l)
    (touched : ∀ i : Nat, n = i → touches i part) (change : l.Change limits part m) :
    Change limits touches p (p.withLanguage n m) :=
  have ⟨hn, live⟩ := language_eq_ok_iff.mp hl
  .language live (touched _ (Int.toNat_of_nonneg hn).symm) change

theorem change_updateLanguage {f : Language → Except Error Language}
    (h : p.updateLanguage n f = .ok q) (touched : ∀ i : Nat, n = i → touches i part)
    (change : ∀ l m, f l = .ok m → l.Change limits part m) : Change limits touches p q := by
  obtain ⟨l, hl, h⟩ := bind_eq_ok_iff.mp h
  obtain ⟨m, hm, h⟩ := bind_eq_ok_iff.mp h
  cases h
  exact change_withLanguage hl touched (change l m hm)

theorem change_modifyLanguage {α : Type} {a : α} {f : Language → Except Error (α × Language)}
    (h : p.modifyLanguage n f = .ok (a, q)) (touched : ∀ i : Nat, n = i → touches i part)
    (change : ∀ l b m, f l = .ok (b, m) → l.Change limits part m) : Change limits touches p q := by
  obtain ⟨l, hl, h⟩ := bind_eq_ok_iff.mp h
  obtain ⟨⟨b, m⟩, hm, h⟩ := bind_eq_ok_iff.mp h
  cases h
  exact change_withLanguage hl touched (change l _ m hm)

theorem change_renameLanguage {name : Datum} (touched : ∀ i : Nat, n = i → touches i .header)
    (h : p.renameLanguage n name = .ok q) : Change limits touches p q := by
  refine change_updateLanguage h touched ?_
  rintro l m ⟨⟩
  exact .header name l.ancestor

theorem change_setAncestor {a : Option Int} (touched : ∀ i : Nat, n = i → touches i .header)
    (h : p.setAncestor n a = .ok q) : Change limits touches p q := by
  refine change_updateLanguage h touched fun l m hm => ?_
  split at hm
  · cases hm
    exact .header l.name _
  · split at hm
    · cases hm
    · obtain ⟨_, -, hm⟩ := bind_eq_ok_iff.mp hm
      cases hm
      exact .header l.name _

theorem change_removeLanguage (h : p.removeLanguage n = .ok q) : Change limits touches p q := by
  obtain ⟨⟨_, languages⟩, hr, h⟩ := bind_eq_ok_iff.mp h
  obtain ⟨i, -, hr⟩ := bind_eq_ok_iff.mp hr
  cases hr
  cases h
  exact .removeLanguage p i

theorem change_alterPos {index name abbr : Datum} (h : p.alterPos index name abbr = .ok q) :
    Change limits touches p q := by
  obtain ⟨parts, -, h⟩ := bind_eq_ok_iff.mp h
  cases h
  exact .partsOfSpeech p parts

theorem change_removePos {index : Datum} (h : p.removePos index = .ok q) :
    Change limits touches p q := by
  obtain ⟨⟨_, parts⟩, -, h⟩ := bind_eq_ok_iff.mp h
  cases h
  exact .partsOfSpeech p parts

section

variable {c : Config}

theorem change_addWord {w : Word} {place : Nat} (touched : ∀ i : Nat, n = i → touches i .words)
    (h : p.addWord c n w = .ok (place, q)) : Change c.limits touches p q := by
  refine change_modifyLanguage h touched fun l _ m hm => ?_
  obtain ⟨ps, hps, hm⟩ := bind_eq_ok_iff.mp hm
  obtain ⟨v, hv, hm⟩ := bind_eq_ok_iff.mp hm
  cases hm
  exact Language.change_addWord hps hv

theorem change_alterWord {index : Datum} {change : WordChange} {w : Word}
    (touched : ∀ i : Nat, n = i → touches i .words) (h : p.alterWord c n index change = .ok (w, q)) :
    Change c.limits touches p q := by
  refine change_modifyLanguage h touched fun l _ m hm => ?_
  obtain ⟨old, -, hm⟩ := bind_eq_ok_iff.mp hm
  obtain ⟨ps, hps, hm⟩ := bind_eq_ok_iff.mp hm
  obtain ⟨v, hv, hm⟩ := bind_eq_ok_iff.mp hm
  obtain ⟨vocab, hs, hm⟩ := bind_eq_ok_iff.mp hm
  cases hm
  exact Language.change_alterWord hps hv hs

theorem change_removeWord {index : Datum} (touched : ∀ i : Nat, n = i → touches i .words)
    (h : p.removeWord n index = .ok q) : Change limits touches p q := by
  refine change_updateLanguage h touched fun l m hm => ?_
  obtain ⟨⟨_, vocab⟩, hv, hm⟩ := bind_eq_ok_iff.mp hm
  cases hm
  exact Language.change_removeWord hv

theorem change_derive {a : Int} (touched : ∀ i : Nat, n = i → touches i .words) :
    Change c.limits touches p (p.derive c n a).1 := by
  unfold derive
  cases hd : p.derivation c n a with
  | error e => exact .refl p
  | ok parts =>
    obtain ⟨l, source, ps⟩ := parts
    obtain ⟨-, hl, -, hps⟩ := derivation_eq_ok_iff.mp hd
    exact change_withLanguage hl touched (Language.change_derive hps)

theorem change_morphLanguage (touched : ∀ i : Nat, n = i → touches i .words) :
    Change c.limits touches p (p.morphLanguage c n).1 := by
  unfold morphLanguage
  cases hl : p.language n with
  | error e => exact .refl p
  | ok l =>
    dsimp only
    cases hps : l.pipelines c.limits with
    | error e => exact .refl p
    | ok ps => exact change_withLanguage hl touched (Language.change_morphAll hps)

theorem change_morphAll (langs : Option Int) (touched : ∀ i, touches i .words) :
    Change c.limits touches p (p.morphAll c langs).1 :=
  morphAll_keeps (fun _ _ first => .trans first (change_morphLanguage fun i _ => touched i)) langs (.refl p)

end

section

variable {key content target replacement environment index : Datum}

theorem change_addCategory (touched : ∀ i : Nat, n = i → touches i .categories)
    (h : p.addCategory n key content = .ok q) : Change limits touches p q := by
  refine change_updateLanguage h touched fun l m hm => ?_
  obtain ⟨_, hc, hm⟩ := bind_eq_ok_iff.mp hm
  obtain ⟨t, -, hc⟩ := bind_eq_ok_iff.mp hc
  cases hc
  cases hm
  exact .categories t

theorem change_removeCategory (touched : ∀ i : Nat, n = i → touches i .categories)
    (h : p.removeCategory n key = .ok q) : Change limits touches p q := by
  refine change_updateLanguage h touched fun l m hm => ?_
  obtain ⟨⟨_, _⟩, hc, hm⟩ := bind_eq_ok_iff.mp hm
  obtain ⟨⟨_, t⟩, -, hc⟩ := bind_eq_ok_iff.mp hc
  cases hc
  cases hm
  exact .categories t

theorem change_addSoundChange {place : Nat}
    (touched : ∀ i : Nat, n = i → touches i .newSoundChanges)
    (h : p.addSoundChange n target replacement environment = .ok (place, q)) :
    Change limits touches p q := by
  refine change_modifyLanguage h touched fun l _ m hm => ?_
  obtain ⟨s, -, hm⟩ := bind_eq_ok_iff.mp hm
  obtain ⟨⟨_, changes⟩, hc, hm⟩ := bind_eq_ok_iff.mp hm
  cases hm
  exact Language.change_addSoundChange hc

theorem change_alterSoundChange (touched : ∀ i : Nat, n = i → touches i .soundChanges)
    (h : p.alterSoundChange n index target replacement environment = .ok q) :
    Change limits touches p q := by
  refine change_updateLanguage h touched fun l m hm => ?_
  obtain ⟨s, -, hm⟩ := bind_eq_ok_iff.mp hm
  obtain ⟨⟨_, changes⟩, hc, hm⟩ := bind_eq_ok_iff.mp hm
  cases hm
  exact Language.change_alterSoundChange hc

theorem change_insertSoundChange (touched : ∀ i : Nat, n = i → touches i .newSoundChanges)
    (h : p.insertSoundChange n index target replacement environment = .ok q) :
    Change limits touches p q := by
  refine change_updateLanguage h touched fun l m hm => ?_
  obtain ⟨s, -, hm⟩ := bind_eq_ok_iff.mp hm
  obtain ⟨changes, hc, hm⟩ := bind_eq_ok_iff.mp hm
  cases hm
  exact Language.change_insertSoundChange hc

theorem change_removeSoundChange (touched : ∀ i : Nat, n = i → touches i .soundChanges)
    (h : p.removeSoundChange n index = .ok q) : Change limits touches p q := by
  refine change_updateLanguage h touched fun l m hm => ?_
  obtain ⟨⟨_, changes⟩, hc, hm⟩ := bind_eq_ok_iff.mp hm
  cases hm
  exact Language.change_removeSoundChange hc

end

theorem indexOf_eq_ok_iff {d : Datum} : p.indexOf d = .ok n ↔ d.quantity? = some (.whole n) := by
  unfold indexOf locate
  cases d.quantity? with
  | none => simp [Except.map]
  | some quantity =>
    cases quantity with
    | whole m => simp
    | fraction x =>
      dsimp only
      split <;> simp [Except.map]

end Project

/-! ## Calls -/

namespace Call

/-- The language that a call is about, if it is about one, and the part of it. -/
def subject? : Call → Option (Datum × Part)
  | renameLanguage lang _ | setAncestor lang _ => some (lang, .header)
  | addWord lang .. | alterWord lang .. | removeWord lang _ | derive lang _ => some (lang, .words)
  | addRule lang .. | alterRule lang .. | insertRule lang .. | removeRule lang .. =>
    some (lang, .plainRules)
  | addCategory lang .. | removeCategory lang _ => some (lang, .categories)
  | alterSoundChange lang .. | removeSoundChange lang _ => some (lang, .soundChanges)
  | addSoundChange lang .. | insertSoundChange lang .. => some (lang, .newSoundChanges)
  | addLanguage _ | removeLanguage _ | addPos .. | alterPos .. | removePos _ => none

/-- A call is about a part of the language at an index, which may be written as any whole number. -/
def Touches (call : Call) (i : Nat) (part : Part) : Prop :=
  ∃ lang, call.subject? = some (lang, part) ∧ lang.quantity? = some (.whole i)

variable {c : Config} {limits : Limits} {p : Project} {call : Call} {lang : Datum} {part : Part}
  {touches : Nat → Part → Prop}

theorem change_attempt {outcome : Except Error Project}
    (h : ∀ q, outcome = .ok q → Project.Change limits touches p q) :
    Project.Change limits touches p (p.attempt outcome).1 := by
  cases outcome with
  | error e => exact .refl p
  | ok q => exact h q rfl

theorem change_attempt_failed {outcome : Except Error Project} {e : Error}
    (h : (p.attempt outcome).2 = .error e) :
    Project.Change limits touches p (p.attempt outcome).1 := by
  rw [attempt_failed h]
  exact .refl p

/-- A call that is about a language touches the part that it is about. -/
theorem change_about {f : Int → Except Error Project} (subject : call.subject? = some (lang, part))
    (h : ∀ (n : Int) q, (∀ i : Nat, n = i → call.Touches i part) → f n = .ok q →
      Project.Change limits call.Touches p q) :
    Project.Change limits call.Touches p (p.attempt (p.indexOf lang >>= f)).1 := by
  refine change_attempt fun q hq => ?_
  obtain ⟨n, hn, hq⟩ := bind_eq_ok_iff.mp hq
  exact h n q (fun i hi => ⟨lang, subject, hi ▸ Project.indexOf_eq_ok_iff.mp hn⟩) hq

/-- The same for a call that has a result besides the project. -/
theorem change_about_fst {α : Type} {f : Int → Except Error (α × Project)}
    (subject : call.subject? = some (lang, part))
    (h : ∀ (n : Int) a q, (∀ i : Nat, n = i → call.Touches i part) → f n = .ok (a, q) →
      Project.Change limits call.Touches p q) :
    Project.Change limits call.Touches p
      (p.attempt (p.indexOf lang >>= fun n => f n >>= fun r => pure r.2)).1 := by
  refine change_about subject fun n q touched hq => ?_
  obtain ⟨⟨a, r⟩, hr, hq⟩ := bind_eq_ok_iff.mp hq
  cases hq
  exact h n a r touched hr

open Project in
/-- A call changes no part of a language but the one that it is about. -/
theorem change_run (c : Config) (p : Project) (call : Call) :
    Project.Change c.limits call.Touches p (call.run c p).1 := by
  cases call with
  | addLanguage name => exact .addLanguage p name
  | renameLanguage => exact change_about rfl fun _ _ => change_renameLanguage
  | setAncestor =>
    refine change_about rfl fun n q touched h => ?_
    obtain ⟨a, -, h⟩ := bind_eq_ok_iff.mp h
    exact change_setAncestor touched h
  | removeLanguage =>
    refine change_attempt fun q h => ?_
    obtain ⟨n, -, h⟩ := bind_eq_ok_iff.mp h
    exact change_removeLanguage h
  | addPos => exact .partsOfSpeech p _
  | alterPos => exact change_attempt fun _ => change_alterPos
  | removePos => exact change_attempt fun _ => change_removePos
  | addWord => exact change_about_fst rfl fun _ _ _ => change_addWord
  | alterWord => exact change_about_fst rfl fun _ _ _ => change_alterWord
  | removeWord => exact change_about rfl fun _ _ => change_removeWord
  | addRule =>
    exact change_about_fst rfl fun n i q touched h =>
      change_modifyLanguage h touched fun l i m => Language.change_addRule
  | alterRule =>
    exact change_about rfl fun n q touched h =>
      change_updateLanguage h touched fun l m => Language.change_alterRule
  | insertRule =>
    exact change_about rfl fun n q touched h =>
      change_updateLanguage h touched fun l m => Language.change_insertRule
  | removeRule =>
    exact change_about rfl fun n q touched h =>
      change_updateLanguage h touched fun l m => Language.change_removeRule
  | addCategory => exact change_about rfl fun _ _ => change_addCategory
  | removeCategory => exact change_about rfl fun _ _ => change_removeCategory
  | addSoundChange => exact change_about_fst rfl fun _ _ _ => change_addSoundChange
  | alterSoundChange => exact change_about rfl fun _ _ => change_alterSoundChange
  | insertSoundChange => exact change_about rfl fun _ _ => change_insertSoundChange
  | removeSoundChange => exact change_about rfl fun _ _ => change_removeSoundChange
  | derive lang ancestor =>
    rw [run]
    cases hd : p.derivationOf lang ancestor with
    | error e => exact .refl p
    | ok found =>
      obtain ⟨n, hn, hd⟩ := bind_eq_ok_iff.mp hd
      obtain ⟨a, -, hd⟩ := bind_eq_ok_iff.mp hd
      cases hd
      exact change_derive fun i hi => ⟨lang, rfl, hi ▸ indexOf_eq_ok_iff.mp hn⟩

/-- A call that fails changes no part of a language that was there but its words. -/
theorem change_run_failed {e : Error} (h : (call.run c p).2 = .error e) :
    (∃ lang, call.subject? = some (lang, .words)) ∨
      Project.Change c.limits (fun _ _ => False) p (call.run c p).1 := by
  cases call
  case addLanguage name => exact .inr (.addLanguage p name)
  case derive lang ancestor => exact .inl ⟨lang, rfl⟩
  all_goals exact .inr (change_attempt_failed h)

/-- A call changes the part that it is about if it returns; one that fails changes words at most of
the languages that were there. -/
theorem change_run_returned (c : Config) (p : Project) (call : Call) :
    Project.Change c.limits
      (fun i part => call.Touches i part ∧ (part = .words ∨ (call.run c p).2 = .ok ()))
      p (call.run c p).1 := by
  cases h : (call.run c p).2 with
  | ok => exact (change_run c p call).mono fun i part touched => ⟨touched, .inr rfl⟩
  | error e =>
    rcases change_run_failed h with ⟨lang, words⟩ | change
    · refine (change_run c p call).mono fun i part touched => ⟨touched, .inl ?_⟩
      obtain ⟨lang', subject, -⟩ := touched
      rw [words] at subject
      cases subject
      rfl
    · exact change.mono fun _ _ => False.elim

end Call
end Neogrammar
