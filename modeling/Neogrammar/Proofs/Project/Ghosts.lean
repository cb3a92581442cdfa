import Neogrammar.Proofs.Project.Derivation
import Neogrammar.Proofs.Substitution

/-!
# Failed derivations

In a transaction, a derivation that fails leaves the project as it was. Unless a run goes past its
limits, it fails exactly at ghosts: words whose one claim into the ancestor cannot be met.
-/
namespace Neogrammar

namespace Descent

variable {ancestor : Int} {ps : Pipelines} {source vocab : Slots Word} {i j : Nat}
variable {fuses : List (Nat × Word)} {left : List (Option Word)} {e : Error}

/-- The word at index `i` has exactly one coordinate, into the ancestor, and the word it names has
an index out of range, was removed, or is already named by an earlier such word. -/
def IsGhost (ancestor : Int) (source vocab : Slots Word) (i : Nat) : Prop :=
  ∃ n, Claims ancestor vocab i n ∧
    (n < 0 ∨ source.size ≤ n ∨ source.find? n.toNat = none ∨
      ∃ j, j < i ∧ Claims ancestor vocab j n)

/-- Every word of a vocabulary is spelled by a text. -/
def Spelled (vocab : Slots Word) : Prop :=
  ∀ i w, vocab.find? i = some w → ∃ s, w.mnemonic = .text s

theorem waiting?_eq_none_iff {n : Int} :
    waiting? source.cells n = none ↔
      n < 0 ∨ source.size ≤ n ∨ source.find? n.toNat = none := by
  by_cases hn : 0 ≤ n
  · have hw : waiting? source.cells n = source.find? n.toNat := by simp [waiting?, hn, Slots.find?]
    rw [hw]
    constructor
    · exact fun h => .inr (.inr h)
    · rintro (h | h | h)
      · omega
      · have hle : source.cells.length ≤ n.toNat := by
          simp only [Slots.size] at h
          omega
        simp [Slots.find?, List.getElem?_eq_none hle]
      · exact h
  · simp [waiting?_neg (Int.not_le.mp hn), Int.not_le.mp hn]

/-- A scan past the words below index `i` has met no ghost among them. -/
theorem Refreshed.no_ghost {before : List (Nat × Word)}
    (h : Refreshed ancestor ps before source.cells fuses left)
    (hbefore : ∀ j v, vocab.find? j = some v → j < i → (j, v) ∈ before) (hj : j < i) :
    ¬ IsGhost ancestor source vocab j := by
  rintro ⟨n, ⟨v, hv, hva⟩, hghost⟩
  have hm := hbefore j v hv hj
  obtain ⟨origin, -, ho, -⟩ :=
    h.fused j v ⟨ancestor, n⟩ hm (coordinateInto?_eq_some_iff.mpr ⟨hva, rfl⟩)
  have hmet : ¬ (n < 0 ∨ source.size ≤ n ∨ source.find? n.toNat = none) := by
    rw [← waiting?_eq_none_iff, ho]
    simp
  rcases hghost with hg | hg | hg | ⟨k, hk, w, hw, hwa⟩
  · exact hmet (.inl hg)
  · exact hmet (.inr (.inl hg))
  · exact hmet (.inr (.inr hg))
  · have he := eq_of_claims_nodup h.distinct hm (hbefore k w hw (by omega)) hva hwa
    have hjk : j = k := congrArg Prod.fst he
    omega

/-- What a scan leaves waiting decides whether the next word is a ghost. -/
theorem Refreshed.ghost_iff {before after : List (Nat × Word)} {w : Word} {c : Coordinate}
    (h : Refreshed ancestor ps before source.cells fuses left)
    (hitems : vocab.items = before ++ (i, w) :: after)
    (hc : coordinateInto? ancestor w = some c) :
    waiting? left c.word = none ↔ IsGhost ancestor source vocab i := by
  obtain ⟨hwa, hl⟩ := coordinateInto?_eq_some_iff.mp hc
  have hw : vocab.find? i = some w := Slots.mem_items.mp (by rw [hitems]; simp)
  have hclaim : Claims ancestor vocab i c.word := ⟨w, hw, by rw [hwa, ← hl]⟩
  have hearlier : c.word ∈ claims ancestor before ↔
      ∃ j, j < i ∧ Claims ancestor vocab j c.word := by
    simp only [mem_claims, Slots.mem_items_before hitems, Claims]
    constructor
    · rintro ⟨j, v, ⟨hv, hlt⟩, ha⟩
      exact ⟨j, hlt, v, hv, ha⟩
    · rintro ⟨j, hlt, v, hv, ha⟩
      exact ⟨j, v, ⟨hv, hlt⟩, ha⟩
  have hghost : IsGhost ancestor source vocab i ↔ waiting? source.cells c.word = none ∨
      ∃ j, j < i ∧ Claims ancestor vocab j c.word := by
    rw [waiting?_eq_none_iff, or_assoc, or_assoc]
    constructor
    · rintro ⟨n, ⟨v, hv, hva⟩, hn⟩
      cases hw.symm.trans hv
      rw [hwa] at hva
      cases hva
      exact hn
    · exact fun hn => ⟨c.word, hclaim, hn⟩
  rw [hghost, h.waiting, ← hearlier]
  by_cases hm : c.word ∈ claims ancestor before <;> simp [hm]

theorem no_ghost_of_refresh
    (hr : refresh ancestor ps vocab.items source.cells = (fuses, .ok left)) (j : Nat) :
    ¬ IsGhost ancestor source vocab j :=
  (refreshed_of_ok hr).no_ghost (i := j + 1) (fun _ _ hv _ => Slots.mem_items.mpr hv)
    (Nat.lt_succ_self j)

/-- A scan that fails has met no ghost before the word where it stops; it stops there because that
word is a ghost or because a word of the ancestor has no descendant. -/
theorem ghost_of_refresh
    (hr : refresh ancestor ps vocab.items source.cells = (fuses, .error e)) :
    ∃ i, (∀ j, j < i → ¬ IsGhost ancestor source vocab j) ∧
      ((IsGhost ancestor source vocab i ∧ e = .ghost i) ∨
        ∃ r origin c, source.find? r = some origin ∧ descendant origin c ps = .error e) := by
  obtain ⟨before, i, w, c, after, left, hitems, hb, hc, hstop⟩ := refresh_failed hr
  have hscan := refreshed_of_ok hb
  refine ⟨i, fun j hj => hscan.no_ghost (fun k v hv hk => ?_) hj, ?_⟩
  · exact (Slots.mem_items_before hitems).mpr ⟨hv, hk⟩
  · rcases hstop with ⟨hw, he⟩ | ⟨origin, ho, hd⟩
    · exact .inl ⟨(hscan.ghost_iff hitems hc).mp hw, he⟩
    · right
      rw [hscan.waiting] at ho
      split at ho
      · cases ho
      · exact ⟨_, origin, c, (waiting?_eq_some_iff.mp ho).2, hd⟩

theorem descendant_failed {origin : Word} {c : Coordinate} {s : String}
    (hs : origin.mnemonic = .text s) (h : descendant origin c ps = .error e) : e.IsStop := by
  simp only [descendant, hs, Word.morph, Word.morphSurface, Word.morphPhonetic, Word.entered,
    bind_eq_error_iff, map_eq_error_iff, map_eq_ok_iff] at h
  rcases h with h | ⟨m, hm, h⟩
  · exact Pipeline.run_text_failed h
  · obtain ⟨result, rfl⟩ := Pipeline.run_text_ok hm
    rcases h with h | ⟨v, ⟨t, -, rfl⟩, h⟩
    · exact Pipeline.run_text_failed h
    · exact Pipeline.run_text_failed h

end Descent

namespace Project

variable {p : Project} {c : Config} {lang ancestor : Int}

/-- The outcome of a derivation in which some run of a rule went past its limits. -/
def HitsLimits (outcome : Except Error Descent.Report) : Prop :=
  ∃ e, outcome = .error e ∧ e.IsStop

theorem derive_ghost_iff {l a : Language} {ps : Pipelines}
    (hd : p.derivation c lang ancestor = .ok (l, a, ps)) (hspelled : Descent.Spelled a.vocab)
    (hlimits : ¬ HitsLimits (p.derive c lang ancestor).2) (i : Nat) :
    (p.derive c lang ancestor).2 = .error (.ghost i) ↔
      Descent.IsGhost ancestor a.vocab l.vocab i ∧
        ∀ j, j < i → ¬ Descent.IsGhost ancestor a.vocab l.vocab j := by
  have hreturns : ∀ r origin k e, a.vocab.find? r = some origin →
      Descent.descendant origin k ps = .error e → (p.derive c lang ancestor).2 ≠ .error e := by
    intro r origin k e ho hdesc he
    obtain ⟨s, hs⟩ := hspelled r origin ho
    exact hlimits ⟨e, he, Descent.descendant_failed hs hdesc⟩
  rw [derive_of_derivation hd] at hreturns ⊢
  cases hr : Descent.refresh ancestor ps l.vocab.items a.vocab.cells with
  | mk fuses result =>
    cases result with
    | error e =>
      rw [Descent.derive_eq_error_of_refresh hr] at hreturns ⊢
      obtain ⟨k, hbefore, ⟨hghost, rfl⟩ | ⟨r, origin, c', ho, hdesc⟩⟩ :=
        Descent.ghost_of_refresh hr
      · simp only [Except.error.injEq, Error.ghost.injEq]
        constructor
        · rintro rfl
          exact ⟨hghost, hbefore⟩
        · rintro ⟨hi, hfirst⟩
          rcases Nat.lt_trichotomy k i with hlt | heq | hlt
          · exact absurd hghost (hfirst k hlt)
          · exact heq
          · exact absurd hi (hbefore i hlt)
      · exact absurd rfl (hreturns r origin c' e ho hdesc)
    | ok left =>
      have hnone : ¬ Descent.IsGhost ancestor a.vocab l.vocab i := Descent.no_ghost_of_refresh hr i
      cases hi : Descent.inherit ancestor ps 0 left with
      | error e =>
        rw [Descent.derive_eq_error_of_inherit hr hi] at hreturns ⊢
        obtain ⟨r, origin, hm, hdesc⟩ := Descent.inherit_failed hi
        rw [← Slots.items_eq_itemsFrom, Slots.mem_items] at hm
        have ho := ((Descent.refreshed_of_ok hr).find?_left.mp hm).1
        exact absurd rfl (hreturns r origin _ e ho hdesc)
      | ok fresh =>
        rw [Descent.derive_eq_ok hr hi]
        simp [hnone]

/-- In a transaction, a derivation that fails changes nothing. Where both languages are live and
differ, the pipelines compile and no run goes past its limits, a derivation fails at a ghost exactly
if there is one, and names the first. -/
theorem derive_failure (p : Project) (c : Config) (lang ancestor : Int)
    (hc : c.transactional = true) :
    (∀ e, (p.derive c lang ancestor).2 = .error e → (p.derive c lang ancestor).1 = p) ∧
      ∀ l a ps, lang ≠ ancestor → p.language lang = .ok l → p.language ancestor = .ok a →
        l.pipelines c.limits = .ok ps → Descent.Spelled a.vocab →
        ¬ HitsLimits (p.derive c lang ancestor).2 →
        ((∃ i, (p.derive c lang ancestor).2 = .error (.ghost i)) ↔
          ∃ i, Descent.IsGhost ancestor a.vocab l.vocab i) ∧
        ∀ i, (p.derive c lang ancestor).2 = .error (.ghost i) ↔
          Descent.IsGhost ancestor a.vocab l.vocab i ∧
            ∀ j, j < i → ¬ Descent.IsGhost ancestor a.vocab l.vocab j := by
  refine ⟨?_, ?_⟩
  · intro e he
    rcases derive_failed he with ⟨-, hp⟩ | ⟨l, a, ps, fuses, hd, hp, -⟩
    · exact hp
    · rw [hp, if_pos hc]
      exact withLanguage_self (derivation_eq_ok_iff.mp hd).2.1
  · intro l a ps hne hl ha hps hspelled hlimits
    have hghost := derive_ghost_iff (derivation_eq_ok_iff.mpr ⟨hne, hl, ha, hps⟩) hspelled hlimits
    refine ⟨?_, hghost⟩
    constructor
    · rintro ⟨i, hi⟩
      exact ⟨i, ((hghost i).mp hi).1⟩
    · intro hex
      classical
      exact ⟨Nat.find hex, (hghost _).mpr ⟨Nat.find_spec hex, fun j hj => Nat.find_min hex hj⟩⟩

/-- Word 3 of the descendant names a word that word 0 already names. -/
theorem derive_failure_isles :
    ((isles 3).derive .default 1 0).2 = .error (.ghost 3) ∧
      ((isles 3).derive .default 1 0).1 = isles 3 ∧
      Descent.IsGhost 0 proto.vocab (isle 3).vocab 3 ∧
      ∀ j, j < 3 → ¬ Descent.IsGhost 0 proto.vocab (isle 3).vocab j := by
  have hfail : ((isles 3).derive .default 1 0).2 = .error (.ghost 3) := rfl
  have hspelled : Descent.Spelled proto.vocab := by
    intro i w h
    rcases i with _ | _ | _ | _ | i <;> cases h <;> exact ⟨_, rfl⟩
  have hlimits : ¬ HitsLimits ((isles 3).derive .default 1 0).2 := by
    rw [hfail]
    rintro ⟨e, he, pattern, passes, length, rfl⟩
    cases he
  have hcompiles : ((isle 3).pipelines Config.default.limits).isOk = true := by decide +kernel
  obtain ⟨hsame, hghost⟩ := derive_failure (isles 3) .default 1 0 rfl
  cases hps : (isle 3).pipelines Config.default.limits with
  | error e =>
    rw [hps] at hcompiles
    cases hcompiles
  | ok ps =>
    obtain ⟨-, hfirst⟩ := hghost (isle 3) proto ps (by decide) rfl rfl hps hspelled hlimits
    exact ⟨hfail, hsame _ hfail, (hfirst 3).mp hfail⟩

end Project
end Neogrammar
