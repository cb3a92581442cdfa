import Neogrammar.Proofs.Project.Moves

/-!
# Where ancestors point

A language is pointed at an ancestor by hand, or by a derivation, which does so before it can still
fail. Both look first that the ancestor is a live language other than the language itself. Slots are
only ever given up together with the pointers into them, when the outermost block is undone, so the
ancestor of a live language is always the index of another slot: one that may be empty by then.
-/
namespace Neogrammar

/-- The ancestor of a language at an index, if it has one, is another index below a bound. -/
def Language.Points (bound i : Nat) (l : Language) : Prop :=
  ∀ a, l.ancestor = some a → 0 ≤ a ∧ a < bound ∧ a ≠ i

namespace Language

variable {bound i : Nat} {l m : Language}

theorem points_named (name : Datum) : (named name).Points bound i := fun _ h => nomatch h

theorem Points.mono {more : Nat} (h : l.Points bound i) (le : bound ≤ more) : l.Points more i := by
  intro a ha
  obtain ⟨nonneg, below, other⟩ := h a ha
  exact ⟨nonneg, by omega, other⟩

theorem Points.congr (h : l.Points bound i) (same : m.ancestor = l.ancestor) : m.Points bound i :=
  fun a ha => h a (same ▸ ha)

/-- Only changes of the header and of the words set the ancestor. -/
theorem Change.ancestor_eq {limits : Limits} {part : Part} (h : l.Change limits part m)
    (header : part ≠ .header) (words : part ≠ .words) : m.ancestor = l.ancestor := by
  cases h with
  | header => exact absurd rfl header
  | words => exact absurd rfl words
  | plainRules kind => cases kind <;> rfl
  | categories | soundChanges | newSoundChanges => rfl

end Language

/-- However it ends, a derivation leaves the ancestor as it was or has set it. -/
theorem Descent.ancestor_derive (l source : Language) (n a : Int) (ps : Pipelines)
    (transactional : Bool) :
    (derive l source n a ps transactional).1.ancestor = l.ancestor ∨
      (derive l source n a ps transactional).1.ancestor = some a := by
  cases hr : refresh a ps l.vocab.items source.vocab.cells with
  | mk fuses result =>
    cases result with
    | error e =>
      rw [derive_eq_error_of_refresh hr]
      cases transactional
      · exact .inr rfl
      · exact .inl rfl
    | ok left =>
      cases hi : inherit a ps 0 left with
      | error e =>
        rw [derive_eq_error_of_inherit hr hi]
        cases transactional
        · exact .inr rfl
        · exact .inl rfl
      | ok fresh =>
        rw [derive_eq_ok hr hi]
        exact .inr rfl

namespace Project

/-- The ancestor of every live language is none, or the index of another slot. -/
def Rooted (p : Project) : Prop := p.Holds (Language.Points p.languages.size)

variable {p q : Project} {c : Config} {n : Int} {l m : Language}

theorem rooted_empty : empty.Rooted := fun _ _ h => nomatch h

theorem Rooted.language (hp : p.Rooted) (hl : p.language n = .ok l) :
    l.Points p.languages.size n.toNat :=
  hp _ _ (language_eq_ok_iff.mp hl).2

/-- A live language other than one may be its ancestor. -/
theorem points_of_language {i : Nat} {a : Int} (ha : p.language a = .ok l) (other : a ≠ i)
    (set : m.ancestor = some a) : m.Points p.languages.size i := by
  intro b hb
  cases set.symm.trans hb
  obtain ⟨nonneg, live⟩ := language_eq_ok_iff.mp ha
  have below := Slots.lt_size_of_find? live
  exact ⟨nonneg, by omega, other⟩

theorem Rooted.withLanguage (hp : p.Rooted) (hm : m.Points p.languages.size n.toNat) :
    (p.withLanguage n m).Rooted := by
  have size : (p.withLanguage n m).languages.size = p.languages.size := Slots.size_put _ _ _
  intro i k hk
  rw [size]
  rcases Slots.find?_put_cases hk with ⟨-, old⟩ | ⟨rfl, new⟩
  · exact hp i k old
  · cases new
    exact hm

theorem Rooted.updateLanguage {f : Language → Except Error Language} (hp : p.Rooted)
    (h : p.updateLanguage n f = .ok q)
    (points : ∀ l m, p.language n = .ok l → f l = .ok m → l.Points p.languages.size n.toNat →
      m.Points p.languages.size n.toNat) : q.Rooted := by
  obtain ⟨l, hl, h⟩ := bind_eq_ok_iff.mp h
  obtain ⟨m, hm, h⟩ := bind_eq_ok_iff.mp h
  cases h
  exact hp.withLanguage (points l m hl hm (hp.language hl))

theorem Rooted.modifyLanguage {α : Type} {a : α} {f : Language → Except Error (α × Language)}
    (hp : p.Rooted) (h : p.modifyLanguage n f = .ok (a, q))
    (same : ∀ l b m, f l = .ok (b, m) → m.ancestor = l.ancestor) : q.Rooted := by
  obtain ⟨l, hl, h⟩ := bind_eq_ok_iff.mp h
  obtain ⟨⟨b, m⟩, hm, h⟩ := bind_eq_ok_iff.mp h
  cases h
  exact hp.withLanguage ((hp.language hl).congr (same l _ m hm))

/-- Changes that are about neither headers nor words set no ancestor. -/
theorem Change.rooted {touches : Nat → Part → Prop} (h : Change c.limits touches p q)
    (none : ∀ i part, touches i part → part ≠ .header ∧ part ≠ .words) (hp : p.Rooted) :
    q.Rooted := by
  refine h.holds (fun i => Language.points_named) ?_ fun i l hl => (hp i l hl).mono h.size_le
  intro i part l m touched change points
  obtain ⟨header, words⟩ := none i part touched
  exact points.congr (change.ancestor_eq header words)

/-! ## Operations that set an ancestor, or write words -/

theorem Rooted.setAncestor {ancestor : Option Int} (hp : p.Rooted)
    (h : p.setAncestor n ancestor = .ok q) : q.Rooted := by
  refine hp.updateLanguage h fun l m hl hm _ => ?_
  cases ancestor with
  | none =>
    cases hm
    exact fun a ha => nomatch ha
  | some a =>
    dsimp only at hm
    split at hm
    · cases hm
    · rename_i other
      obtain ⟨source, ha, hm⟩ := bind_eq_ok_iff.mp hm
      cases hm
      have nonneg := (language_eq_ok_iff.mp hl).1
      exact points_of_language ha (by omega) rfl

theorem Rooted.derive {a : Int} (hp : p.Rooted) : (p.derive c n a).1.Rooted := by
  unfold Project.derive
  cases hd : p.derivation c n a with
  | error e => exact hp
  | ok parts =>
    obtain ⟨l, source, ps⟩ := parts
    obtain ⟨other, hl, ha, -⟩ := derivation_eq_ok_iff.mp hd
    refine hp.withLanguage ?_
    rcases Descent.ancestor_derive l source n a ps c.transactional with same | set
    · exact (hp.language hl).congr same
    · have nonneg := (language_eq_ok_iff.mp hl).1
      exact points_of_language ha (by omega) set

theorem Rooted.morphLanguage (hp : p.Rooted) : (p.morphLanguage c n).1.Rooted := by
  unfold Project.morphLanguage
  cases hl : p.language n with
  | error e => exact hp
  | ok l =>
    dsimp only
    cases hps : l.pipelines c.limits with
    | error e => exact hp
    | ok ps => exact hp.withLanguage ((hp.language hl).congr rfl)

end Project

/-! ## Calls and moves -/

namespace Call

open Project

variable {c : Config} {p : Project}

theorem rooted_attempt {outcome : Except Error Project} (hp : p.Rooted)
    (h : ∀ q, outcome = .ok q → q.Rooted) : (p.attempt outcome).1.Rooted := by
  cases outcome with
  | error e => exact hp
  | ok q => exact h q rfl

theorem rooted_about {lang : Datum} {f : Int → Except Error Project} (hp : p.Rooted)
    (h : ∀ n q, f n = .ok q → q.Rooted) : (p.attempt (p.indexOf lang >>= f)).1.Rooted := by
  refine rooted_attempt hp fun q hq => ?_
  obtain ⟨n, -, hq⟩ := bind_eq_ok_iff.mp hq
  exact h n q hq

/-- A call that is about neither a header nor words sets no ancestor. -/
theorem rooted_run_elsewhere {call : Call} (hp : p.Rooted)
    (elsewhere : ∀ lang part, call.subject? = some (lang, part) → part ≠ .header ∧ part ≠ .words) :
    (call.run c p).1.Rooted := by
  refine (change_run c p call).rooted ?_ hp
  rintro i part ⟨lang, subject, -⟩
  exact elsewhere lang part subject

theorem rooted_run (call : Call) (hp : p.Rooted) : (call.run c p).1.Rooted := by
  cases call with
  | renameLanguage lang name =>
    refine rooted_about hp fun n q h => hp.updateLanguage h fun l m _ hm points => ?_
    cases hm
    exact points.congr rfl
  | setAncestor lang ancestor =>
    refine rooted_about hp fun n q h => ?_
    obtain ⟨a, -, h⟩ := bind_eq_ok_iff.mp h
    exact hp.setAncestor h
  | addWord lang mnemonic gloss pos note ancestors =>
    refine rooted_about hp fun n q h => ?_
    obtain ⟨⟨i, r⟩, hr, h⟩ := bind_eq_ok_iff.mp h
    cases h
    refine hp.modifyLanguage hr fun l i m hm => ?_
    obtain ⟨ps, -, hm⟩ := bind_eq_ok_iff.mp hm
    obtain ⟨w, -, hm⟩ := bind_eq_ok_iff.mp hm
    cases hm
    rfl
  | alterWord lang index change =>
    refine rooted_about hp fun n q h => ?_
    obtain ⟨⟨w, r⟩, hr, h⟩ := bind_eq_ok_iff.mp h
    cases h
    refine hp.modifyLanguage hr fun l w m hm => ?_
    obtain ⟨old, -, hm⟩ := bind_eq_ok_iff.mp hm
    obtain ⟨ps, -, hm⟩ := bind_eq_ok_iff.mp hm
    obtain ⟨v, -, hm⟩ := bind_eq_ok_iff.mp hm
    obtain ⟨vocab, -, hm⟩ := bind_eq_ok_iff.mp hm
    cases hm
    rfl
  | removeWord lang index =>
    refine rooted_about hp fun n q h => hp.updateLanguage h fun l m _ hm points => ?_
    obtain ⟨⟨_, vocab⟩, -, hm⟩ := bind_eq_ok_iff.mp hm
    cases hm
    exact points.congr rfl
  | derive lang ancestor =>
    rw [run]
    cases p.derivationOf lang ancestor with
    | error e => exact hp
    | ok found => exact hp.derive
  | _ =>
    -- all other calls are about rules, categories, parts of speech, or a new or empty slot
    refine rooted_run_elsewhere hp fun lang part subject => ?_
    cases subject <;> simp

end Call

namespace Session

/-- Ancestors point to other slots in the project under edit, and in the one that undoing the
outermost block restores. -/
structure Rooted (s : Session) : Prop where
  project : s.project.Rooted
  snapshot : ∀ p, s.snapshot = some p → p.Rooted

/-- The session after moves in order, each made under a configuration of its own. -/
def turned (s : Session) (turns : List (Config × Move)) : Session :=
  turns.foldl (fun s turn => (turn.2.make { s with config := turn.1 }).1) s

variable {s : Session}

theorem Rooted.make (hs : s.Rooted) (m : Move) : (m.make s).1.Rooted where
  project := by
    cases m with
    | call call =>
      rw [Move.make_call]
      exact call.rooted_run hs.project
    | morphAll lang =>
      rw [Move.make]
      split
      · exact hs.project
      · exact Project.morphAll_keeps (fun _ _ hp => hp.morphLanguage) _ hs.project
    | openBlock => exact s.project_openBlock ▸ hs.project
    | closeBlock => exact s.project_closeBlock ▸ hs.project
    | abortBlock =>
      rcases s.project_abortBlock with same | undone
      · exact same ▸ hs.project
      · exact hs.snapshot _ undone
  snapshot p hp := by
    rcases Move.snapshot_make hp with rfl | old
    · exact hs.project
    · exact hs.snapshot p old

theorem Rooted.turned (hs : s.Rooted) (turns : List (Config × Move)) : (s.turned turns).Rooted := by
  induction turns generalizing s with
  | nil => exact hs
  | cons turn turns ih =>
    have under : ({ s with config := turn.1 } : Session).Rooted := ⟨hs.project, hs.snapshot⟩
    exact ih (under.make turn.2)

/-- In every session that began with the empty project, whatever was tried in it and failed or was
undone, a live language has no ancestor, or one that is the index of another slot. -/
theorem ancestor_in_range (c : Config) (turns : List (Config × Move)) {i : Nat} {l : Language}
    (live : ((ofProject .empty c).turned turns).project.languages.find? i = some l) :
    l.ancestor = none ∨ ∃ a, l.ancestor = some a ∧ 0 ≤ a ∧
      a < ((ofProject .empty c).turned turns).project.languages.size ∧ a ≠ i := by
  have start : (ofProject .empty c).Rooted := ⟨Project.rooted_empty, fun p hp => nomatch hp⟩
  have points := (start.turned turns).project i l live
  cases ancestor : l.ancestor with
  | none => exact .inl rfl
  | some a => exact .inr ⟨a, rfl, points a ancestor⟩

/-- A derivation that stores words at once fails at a ghost when the ancestor is set; a block that
makes the ancestor a descendant of its descendant is undone; then the ancestor is removed. -/
def orphaned : List (Config × Move) :=
  [(.default, .call (.addLanguage "Proto")), (.default, .call (.addLanguage "Isle")),
    (.default, .call (.addWord (.int 1) (.text "") (.text "cliff") 0 (.text "") [⟨0, 3⟩])),
    ({ Config.default with transactional := false }, .call (.derive (.int 1) (.int 0))),
    (.default, .openBlock), (.default, .call (.setAncestor (.int 0) (.int 1))),
    (.default, .call (.removeLanguage (.int 1))), (.default, .abortBlock),
    (.default, .call (.removeLanguage (.int 0)))]

theorem ancestor_in_range_orphaned :
    ∃ l, ((ofProject .empty .default).turned orphaned).project.languages.find? 1 = some l ∧
      l.ancestor = some 0 ∧
      ((ofProject .empty .default).turned orphaned).project.languages.find? 0 = none ∧
      ((0 : Int) < ((ofProject .empty .default).turned orphaned).project.languages.size) := by
  have ancestors : ((ofProject .empty .default).turned orphaned).project.languages.cells.map
      (fun cell => cell.map (·.ancestor)) = [none, some (some 0)] := by decide +kernel
  obtain ⟨a, b, cells⟩ := List.length_eq_two.mp
    ((List.length_map _).symm.trans (congrArg List.length ancestors))
  simp only [cells, List.map_cons, List.map_nil, List.cons.injEq, Option.map_eq_none_iff,
    Option.map_eq_some_iff, and_true] at ancestors
  obtain ⟨rfl, l, rfl, ancestor⟩ := ancestors
  have live : ((ofProject .empty .default).turned orphaned).project.languages.find? 1 = some l := by
    simp [Slots.find?, cells]
  refine ⟨l, live, ancestor, by simp [Slots.find?, cells], ?_⟩
  rcases ancestor_in_range .default orphaned live with root | ⟨a, set, -, below, -⟩
  · cases ancestor.symm.trans root
  · cases ancestor.symm.trans set
    exact below

end Session
end Neogrammar
