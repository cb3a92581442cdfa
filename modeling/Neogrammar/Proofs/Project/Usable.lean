import Neogrammar.Proofs.Project.Moves

/-!
# Stored rules stay usable

Plain rules are checked before they are stored and depend on nothing besides themselves, so in a
session that began with the empty project all of them compile. A sound change also depends on the
categories of its language: it compiles as long as these stay as they were when the first one was
stored.
-/
namespace Neogrammar

/-! ## Rules that compile -/

theorem Replace.Compiles.within {r : Replace} (h : r.Compiles) (limits : Limits) :
    ∃ s, r.compile limits = .ok s := by
  obtain ⟨s, hs⟩ := h
  have compiled := Substitution.ofTexts_within r.pattern r.replacement r.text .default limits
  rw [← compile, ← compile, hs] at compiled
  exact ⟨_, compiled⟩

namespace Language

variable {l m : Language} {limits : Limits} {part : Part}

/-- All surface and phonetic rules compile. -/
def PlainRulesCompile (l : Language) : Prop := ∀ r ∈ l.surfaceRules ++ l.phoneticRules, r.Compiles

/-- All sound changes compile against the categories that there are. -/
def SoundChangesCompile (l : Language) : Prop :=
  ∀ s ∈ l.soundChanges.rules, l.soundChanges.Accepts s

theorem compileRules_returns {rules : List Replace} (h : ∀ r ∈ rules, r.Compiles)
    (limits : Limits) : ∃ ps, compileRules limits rules = .ok ps := by
  induction rules with
  | nil => exact ⟨[], rfl⟩
  | cons r rules ih =>
    rw [List.forall_mem_cons] at h
    obtain ⟨first, hf⟩ := h.1.within limits
    obtain ⟨more, hm⟩ := ih h.2
    exact ⟨first :: more, by rw [compileRules, hf, hm]; rfl⟩

/-- With plain rules that compile, the pipelines come to what the sound changes come to. -/
theorem pipelines_eq_bind (h : l.PlainRulesCompile) (limits : Limits) :
    ∃ toSurface toPhonetic, l.pipelines limits =
      (l.soundChanges.compileAll limits).map fun ps => ⟨toSurface, toPhonetic, ps⟩ := by
  rw [PlainRulesCompile, List.forall_mem_append] at h
  obtain ⟨toSurface, hs⟩ := compileRules_returns h.1 limits
  obtain ⟨toPhonetic, hp⟩ := compileRules_returns h.2 limits
  refine ⟨toSurface, toPhonetic, ?_⟩
  rw [pipelines, hs, ok_bind, hp, ok_bind]
  cases l.soundChanges.compileAll limits <;> rfl

/-! ### Changes -/

theorem Change.plainRulesCompile (h : l.Change limits part m) (hl : l.PlainRulesCompile) :
    m.PlainRulesCompile := by
  cases h with
  | plainRules kind old rules before each =>
    rw [PlainRulesCompile, List.forall_mem_append] at hl ⊢
    have compile (ho : ∀ r ∈ old, r.Compiles) : ∀ r ∈ rules, r.Compiles :=
      fun r hr => (each r hr).elim (ho r) id
    cases kind with
    | surface =>
      cases before
      exact ⟨compile hl.1, hl.2⟩
    | phonetic =>
      cases before
      exact ⟨hl.1, compile hl.2⟩
    | soundChange => cases before
  | _ => exact hl

/-- Only adding one gives a language its first sound change. -/
theorem Change.noSoundChanges (h : l.Change limits part m) (hp : part ≠ .newSoundChanges)
    (hl : l.soundChanges.rules = []) : m.soundChanges.rules = [] := by
  cases h with
  | plainRules kind old rules before each => cases kind <;> exact hl
  | soundChanges rules each shorter =>
    rw [hl] at shorter
    exact List.length_eq_zero_iff.mp (Nat.le_zero.mp shorter)
  | newSoundChanges rules each => exact absurd rfl hp
  | _ => exact hl

theorem Change.soundChangesCompile (h : l.Change limits part m) (hp : part ≠ .categories)
    (hl : l.SoundChangesCompile) : m.SoundChangesCompile := by
  cases h with
  | plainRules kind old rules before each => cases kind <;> exact hl
  | categories t => exact absurd rfl hp
  | soundChanges rules each shorter => exact fun s hs => (each s hs).elim (hl s) id
  | newSoundChanges rules each => exact fun s hs => (each s hs).elim (hl s) id
  | _ => exact hl

end Language

/-! ## Sessions -/

theorem Call.Touches.unique {c : Call} {i : Nat} {part other : Part} (h : c.Touches i part)
    (h' : c.Touches i other) : part = other := by
  obtain ⟨lang, subject, -⟩ := h
  obtain ⟨lang', subject', -⟩ := h'
  rw [subject] at subject'
  cases subject'
  rfl

theorem Move.Touches.unique {m : Move} {i : Nat} {part other : Part} (h : m.Touches i part)
    (h' : m.Touches i other) : part = other := by
  cases m with
  | call c => exact Call.Touches.unique h h'
  | morphAll lang => exact h.trans h'.symm
  | _ => cases h

namespace Session

variable {s : Session} {moves : List Move} {i : Nat}

/-- The language at an index has no sound changes. -/
def Bare (i : Nat) : Nat → Language → Prop := fun j l => j = i → l.soundChanges.rules = []

/-- All sound changes of the language at an index compile. -/
def Sound (i : Nat) : Nat → Language → Prop := fun j l => j = i → l.SoundChangesCompile

theorem Holds.sound (hs : s.Holds (Bare i)) : s.Holds (Sound i) := by
  have none {p : Project} (hp : p.Holds (Bare i)) : p.Holds (Sound i) := by
    intro j l hl hj r hr
    rw [hp j l hl hj] at hr
    cases hr
  exact ⟨none hs.project, fun p hp => none (hs.snapshot p hp)⟩

/-- Before an index is given, its language has no sound changes. -/
theorem bare_of_size_le (h : s.project.languages.size ≤ i)
    (snapshot : ∀ p, s.snapshot = some p → p.languages.size ≤ i) : s.Holds (Bare i) := by
  have absent {p : Project} (hp : p.languages.size ≤ i) : p.Holds (Bare i) := by
    rintro j l hl rfl
    exact absurd (Slots.lt_size_of_find? hl) (Nat.not_lt.mpr hp)
  exact ⟨absent h, fun p hp => absent (snapshot p hp)⟩

/-- Sound changes that compile go on to, as long as no change of categories returns. -/
theorem Holds.sound_moved (hs : s.Holds (Sound i))
    (fixed : ∀ m ∈ s.returned moves, ¬m.Touches i .categories) :
    (s.moved moves).Holds (Sound i) := by
  refine hs.moved (fun j name _ r hr => by cases hr) fun m j part l n touched made change hl hj => ?_
  subst hj
  refine change.soundChangesCompile ?_ (hl rfl)
  rintro rfl
  rcases made with words | returned
  · cases words
  · exact fixed m returned touched

/-- Sound changes of a language that had none compile, if no change of categories returns after one
that adds a sound change. -/
theorem Holds.sound_of_bare (hs : s.Holds (Bare i))
    (order : (s.returned moves).Pairwise fun m n =>
      ¬(m.Touches i .newSoundChanges ∧ n.Touches i .categories)) :
    (s.moved moves).Holds (Sound i) := by
  induction moves generalizing s with
  | nil => exact hs.sound
  | cons m moves ih =>
    by_cases adds : m.Changes s i .newSoundChanges
    · obtain ⟨touched, words | returned⟩ := adds
      · cases words
      rw [returned_cons_ok returned, List.pairwise_cons] at order
      refine Holds.sound_moved hs.sound ?_
      rw [returned_cons_ok returned, List.forall_mem_cons]
      exact ⟨fun categories => (by cases touched.unique categories),
        fun n hn categories => order.1 n hn ⟨touched, categories⟩⟩
    · have still : (m.make s).1.Holds (Bare i) := by
        refine m.holds_make hs (fun _ _ _ => rfl) fun j part l n change hc hl hj => ?_
        subst hj
        refine hc.noSoundChanges ?_ (hl rfl)
        rintro rfl
        exact adds change
      exact ih still (order.sublist returned_sublist_cons)

variable {c : Config}

theorem bare_empty (c : Config) (before : List Move)
    (absent : ((ofProject .empty c).moved before).project.languages.size ≤ i) :
    ((ofProject .empty c).moved before).Holds (Bare i) :=
  bare_of_size_le absent fun p hp =>
    (size_snapshot_moved (by simp [ofProject]) before p hp).trans absent

theorem plainRulesCompile_moved (c : Config) (moves : List Move) :
    ((ofProject .empty c).moved moves).Holds fun _ l => l.PlainRulesCompile := by
  refine Holds.moved ⟨?_, by simp [ofProject]⟩ (fun _ name r hr => by cases hr)
    fun _ _ _ _ _ _ _ change => change.plainRulesCompile
  rintro i l hl
  cases Slots.lt_size_of_find? hl

/-- In a session that began with the empty project, whatever moves were made, failed or were undone,
every plain rule compiles, so that the pipelines of a live language fail only as its sound changes
do. They do not fail if, since the language was added, no change of its categories returned after a
move that added a sound change. Limits have no part in any of this. -/
theorem rules_usable (c : Config) (moves : List Move) {l : Language}
    (live : ((ofProject .empty c).moved moves).project.languages.find? i = some l) :
    (∀ r ∈ l.surfaceRules ++ l.phoneticRules, ∀ limits, ∃ s, r.compile limits = .ok s) ∧
      (∀ c' e, ((ofProject .empty c).moved moves).project.pipelines c' i = .error e →
        l.soundChanges.compileAll c'.limits = .error e) ∧
      ∀ before after, moves = before ++ after →
        ((ofProject .empty c).moved before).project.languages.size ≤ i →
        ((((ofProject .empty c).moved before).returned after).Pairwise fun m n =>
          ¬(m.Touches i .newSoundChanges ∧ n.Touches i .categories)) →
        ∀ c', ∃ ps, ((ofProject .empty c).moved moves).project.pipelines c' i = .ok ps := by
  have plain : l.PlainRulesCompile := (plainRulesCompile_moved c moves).project i l live
  have language : ((ofProject .empty c).moved moves).project.language i = .ok l :=
    Project.language_eq_ok_iff.mpr ⟨Int.natCast_nonneg i, live⟩
  refine ⟨fun r hr limits => (plain r hr).within limits, fun c' e h => ?_, ?_⟩
  · obtain ⟨toSurface, toPhonetic, hps⟩ := Language.pipelines_eq_bind plain c'.limits
    rw [Project.pipelines, language, ok_bind, hps] at h
    exact map_eq_error_iff.mp h
  · rintro before after rfl absent order c'
    have sound := (bare_empty c before absent).sound_of_bare order
    rw [← moved_append] at sound
    obtain ⟨soundChange, hc⟩ :=
      (l.soundChanges.compileAll_returns_iff c'.limits).mpr (sound.project i l live rfl)
    obtain ⟨toSurface, toPhonetic, hps⟩ := Language.pipelines_eq_bind plain c'.limits
    rw [hc] at hps
    exact ⟨⟨toSurface, toPhonetic, soundChange⟩, by rw [Project.pipelines, language, ok_bind, hps]; rfl⟩

/-- A language whose categories are set before its first sound change; then a rule that does not
compile, an error that undoes a block, and forms computed anew. -/
def isleMoves : List Move :=
  [.call (.addLanguage "Isle"), .call (.addCategory (.int 0) "V" "ae"),
    .call (.removeCategory (.int 0) "W"), .call (.addSoundChange (.int 0) "V" "i" "_f"),
    .call (.addRule (.int 0) .surface "f" "h"), .openBlock,
    .call (.addRule (.int 0) .surface "(" "h"), .call (.removeLanguage (.int 0)), .abortBlock,
    .morphAll none]

theorem rules_usable_isle :
    ∃ l, ((ofProject .empty .default).moved isleMoves).project.languages.find? 0 = some l ∧
      l.surfaceRules.length = 1 ∧ l.soundChanges.rules.length = 1 ∧
      (∀ r ∈ l.surfaceRules ++ l.phoneticRules, ∀ limits, ∃ s, r.compile limits = .ok s) ∧
      ∀ c', ∃ ps, ((ofProject .empty .default).moved isleMoves).project.pipelines c' (0 : Nat) =
        .ok ps := by
  have counts : (((ofProject .empty .default).moved isleMoves).project.languages.find? 0).map
      (fun l => (l.surfaceRules.length, l.soundChanges.rules.length)) = some (1, 1) := by
    decide +kernel
  obtain ⟨l, live, counted⟩ := Option.map_eq_some_iff.mp counts
  rw [Prod.mk.injEq] at counted
  obtain ⟨plain, -, usable⟩ := rules_usable .default isleMoves live
  refine ⟨l, live, counted.1, counted.2, plain, usable [] isleMoves rfl le_rfl ?_⟩
  refine List.Pairwise.sublist (returned_sublist _ isleMoves) ?_
  simp [isleMoves, Move.Touches, Call.Touches, Call.subject?]

end Session
end Neogrammar
