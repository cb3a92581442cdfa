import Neogrammar.Project.Basic
import Neogrammar.Proofs.Descent.Merge

/-!
# Derivation within a project

A derivation that returns merges the vocabulary of the ancestor into the language and leaves it
settled; running it once more changes nothing.
-/
namespace Neogrammar

namespace Descent

variable {l a : Language} {li ai : Int} {ps : Pipelines} {transactional : Bool}
variable {fuses : List (Nat × Word)} {left : List (Option Word)}

theorem derive_eq_ok {fresh : List Word}
    (hr : refresh ai ps l.vocab.items a.vocab.cells = (fuses, .ok left))
    (hi : inherit ai ps 0 left = .ok fresh) :
    derive l a li ai ps transactional =
      ({ l with
          ancestor := some ai, vocab := ⟨(fuseAll l.vocab fuses).cells ++ fresh.map some⟩ },
        .ok ⟨li, ai, fuses.map (·.1), List.range' l.vocab.size fresh.length⟩) := by
  simp only [derive, hr, hi, size_fuseAll, List.range'_eq_map_range]

theorem derive_eq_error_of_refresh {e : Error}
    (hr : refresh ai ps l.vocab.items a.vocab.cells = (fuses, .error e)) :
    derive l a li ai ps transactional =
      (if transactional then l
        else { l with ancestor := some ai, vocab := fuseAll l.vocab fuses }, .error e) := by
  simp only [derive, hr]

theorem derive_eq_error_of_inherit {e : Error}
    (hr : refresh ai ps l.vocab.items a.vocab.cells = (fuses, .ok left))
    (hi : inherit ai ps 0 left = .error e) :
    derive l a li ai ps transactional =
      (if transactional then l
        else { l with ancestor := some ai, vocab := fuseAll l.vocab fuses }, .error e) := by
  simp only [derive, hr, hi]

end Descent

namespace Project

variable {p : Project} {c : Config} {lang ancestor : Int}

theorem language_eq_ok_iff {l : Language} :
    p.language lang = .ok l ↔ 0 ≤ lang ∧ p.languages.find? lang.toNat = some l :=
  Slots.get_int_eq_ok_iff

theorem language_withLanguage_same {l l' : Language} (h : p.language lang = .ok l) :
    (p.withLanguage lang l').language lang = .ok l' := by
  obtain ⟨hn, hf⟩ := language_eq_ok_iff.mp h
  exact language_eq_ok_iff.mpr ⟨hn, Slots.find?_put_same _ _ (Slots.lt_size_of_find? hf)⟩

theorem language_withLanguage_other {l a : Language} (h : p.language ancestor = .ok a)
    (hl : 0 ≤ lang) (hne : lang ≠ ancestor) :
    (p.withLanguage lang l).language ancestor = .ok a := by
  obtain ⟨hn, hf⟩ := language_eq_ok_iff.mp h
  refine language_eq_ok_iff.mpr ⟨hn, ?_⟩
  change (p.languages.put lang.toNat (some l)).find? ancestor.toNat = some a
  rw [Slots.find?_put_other _ _ (by omega), hf]

theorem withLanguage_self {l : Language} (h : p.language lang = .ok l) :
    p.withLanguage lang l = p := by
  simp only [withLanguage, Slots.put_find? (language_eq_ok_iff.mp h).2]

theorem locate_of_language {l : Language} (h : p.language lang = .ok l) :
    locate (.int lang) p.languages.size = .ok lang.toNat := by
  obtain ⟨hn, hf⟩ := language_eq_ok_iff.mp h
  have hlt := Slots.lt_size_of_find? hf
  rw [locate_int, if_pos ⟨hn, by omega⟩]

/-- A derivation needs two languages that differ and are live, and the pipelines of the first. -/
theorem derivation_eq_ok_iff {l a : Language} {ps : Pipelines} :
    p.derivation c lang ancestor = .ok (l, a, ps) ↔
      lang ≠ ancestor ∧ p.language lang = .ok l ∧ p.language ancestor = .ok a ∧
        l.pipelines c.limits = .ok ps := by
  unfold derivation
  by_cases he : lang = ancestor
  · simp [he]
  · rw [if_neg he]
    simp only [bind_eq_ok_iff, ne_eq, he, not_false_eq_true, true_and]
    constructor
    · rintro ⟨-, -, -, -, l', hl, a', ha, ps', hps, hp⟩
      cases hp
      exact ⟨hl, ha, hps⟩
    · rintro ⟨hl, ha, hps⟩
      exact ⟨_, locate_of_language hl, _, locate_of_language ha, l, hl, a, ha, ps, hps, rfl⟩

theorem derive_of_derivation {l a : Language} {ps : Pipelines}
    (h : p.derivation c lang ancestor = .ok (l, a, ps)) :
    p.derive c lang ancestor =
      (p.withLanguage lang (Descent.derive l a lang ancestor ps c.transactional).1,
        (Descent.derive l a lang ancestor ps c.transactional).2) := by
  simp only [derive, h]

/-- What a derivation that returns has done. -/
theorem derive_returned {report : Descent.Report} (h : (p.derive c lang ancestor).2 = .ok report) :
    ∃ l a ps vocab unclaimed, p.derivation c lang ancestor = .ok (l, a, ps) ∧
      (p.derive c lang ancestor).1 =
        p.withLanguage lang { l with ancestor := some ancestor, vocab } ∧
      report = ⟨lang, ancestor, report.fused, List.range' l.vocab.size unclaimed.length⟩ ∧
      Descent.Merged ps ancestor a.vocab l.vocab vocab report.fused unclaimed := by
  cases hd : p.derivation c lang ancestor with
  | error e =>
    simp only [derive, hd] at h
    cases h
  | ok found =>
    obtain ⟨l, a, ps⟩ := found
    rw [derive_of_derivation hd] at h ⊢
    cases hr : Descent.refresh ancestor ps l.vocab.items a.vocab.cells with
    | mk fuses result =>
      cases result with
      | error e =>
        rw [Descent.derive_eq_error_of_refresh hr] at h
        cases h
      | ok left =>
        cases hi : Descent.inherit ancestor ps 0 left with
        | error e =>
          rw [Descent.derive_eq_error_of_inherit hr hi] at h
          cases h
        | ok fresh =>
          rw [Descent.derive_eq_ok hr hi] at h ⊢
          cases h
          obtain ⟨hm, hl⟩ := Descent.merged_of_ok hr hi
          exact ⟨l, a, ps, _, _, rfl, rfl, by rw [hl], hm⟩

/-- How a derivation that fails has stopped, and what it has left behind. -/
theorem derive_failed {e : Error} (h : (p.derive c lang ancestor).2 = .error e) :
    (p.derivation c lang ancestor = .error e ∧ (p.derive c lang ancestor).1 = p) ∨
      ∃ l a ps fuses, p.derivation c lang ancestor = .ok (l, a, ps) ∧
        (p.derive c lang ancestor).1 =
          p.withLanguage lang (if c.transactional then l
            else { l with ancestor := some ancestor, vocab := Descent.fuseAll l.vocab fuses }) ∧
        (Descent.refresh ancestor ps l.vocab.items a.vocab.cells = (fuses, .error e) ∨
          ∃ left, Descent.refresh ancestor ps l.vocab.items a.vocab.cells = (fuses, .ok left) ∧
            Descent.inherit ancestor ps 0 left = .error e) := by
  cases hd : p.derivation c lang ancestor with
  | error e' =>
    have hp : p.derive c lang ancestor = (p, .error e') := by simp only [derive, hd]
    rw [hp] at h ⊢
    cases h
    exact .inl ⟨rfl, rfl⟩
  | ok found =>
    obtain ⟨l, a, ps⟩ := found
    right
    rw [derive_of_derivation hd] at h ⊢
    cases hr : Descent.refresh ancestor ps l.vocab.items a.vocab.cells with
    | mk fuses result =>
      refine ⟨l, a, ps, fuses, rfl, ?_⟩
      cases result with
      | error e' =>
        rw [Descent.derive_eq_error_of_refresh hr] at h ⊢
        cases h
        exact ⟨rfl, .inl hr⟩
      | ok left =>
        cases hi : Descent.inherit ancestor ps 0 left with
        | error e' =>
          rw [Descent.derive_eq_error_of_inherit hr hi] at h ⊢
          cases h
          exact ⟨rfl, .inr ⟨left, hr, hi⟩⟩
        | ok fresh =>
          rw [Descent.derive_eq_ok hr hi] at h
          cases h

/-- In a transaction, a derivation that fails leaves the project as it was. -/
theorem derive_failed_same {e : Error} (hc : c.transactional = true)
    (h : (p.derive c lang ancestor).2 = .error e) : (p.derive c lang ancestor).1 = p := by
  rcases derive_failed h with ⟨-, hp⟩ | ⟨l, a, ps, fuses, hd, hp, -⟩
  · exact hp
  · rw [if_pos hc, withLanguage_self (derivation_eq_ok_iff.mp hd).2.1] at hp
    exact hp

/-- A derivation into a settled vocabulary changes nothing but the ancestor of the language. -/
theorem derive_settled {l a : Language} {ps : Pipelines}
    (hd : p.derivation c lang ancestor = .ok (l, a, ps))
    (hs : Descent.Settled ps ancestor a.vocab l.vocab) :
    p.derive c lang ancestor =
      (p.withLanguage lang { l with ancestor := some ancestor },
        .ok ⟨lang, ancestor, Descent.heirs ancestor l.vocab.items, []⟩) := by
  obtain ⟨fuses, left, hr, hf, hl⟩ := hs.refresh
  have hi : Descent.inherit ancestor ps 0 left = .ok [] := by
    rw [Descent.inherit_eq_ok_iff, ← Slots.items_eq_itemsFrom, hl]
    exact .nil
  rw [derive_of_derivation hd, Descent.derive_eq_ok hr hi, hf,
    (Descent.refreshed_of_ok hr).indices]
  simp only [List.map_nil, List.append_nil, List.length_nil, List.range'_zero]

/-- A derivation that returns refreshes exactly the words with one coordinate into the ancestor,
appends exactly the words of the ancestor that none of them names, and keeps all else. Then the
words with one coordinate into the ancestor and the words of the ancestor match one to one. -/
theorem derive_merges {report : Descent.Report} (h : (p.derive c lang ancestor).2 = .ok report) :
    ∃ l a ps vocab unclaimed, lang ≠ ancestor ∧ p.language lang = .ok l ∧
      p.language ancestor = .ok a ∧ l.pipelines c.limits = .ok ps ∧
      (p.derive c lang ancestor).1 =
        p.withLanguage lang { l with ancestor := some ancestor, vocab } ∧
      Descent.Merged ps ancestor a.vocab l.vocab vocab report.fused unclaimed ∧
      report = ⟨lang, ancestor, report.fused, List.range' l.vocab.size unclaimed.length⟩ ∧
      (∀ i n, Descent.Claims ancestor vocab i n →
        ∃ (k : Nat) (origin : Word), n = k ∧ a.vocab.find? k = some origin) ∧
      ∀ (k : Nat) origin, a.vocab.find? k = some origin →
        ∃ i, Descent.Claims ancestor vocab i k ∧
          ∀ j, Descent.Claims ancestor vocab j k → j = i := by
  obtain ⟨l, a, ps, vocab, unclaimed, hd, hp, hreport, hm⟩ := derive_returned h
  obtain ⟨hne, hl, ha, hps⟩ := derivation_eq_ok_iff.mp hd
  have hs := hm.settled
  refine ⟨l, a, ps, vocab, unclaimed, hne, hl, ha, hps, hp, hm, hreport, ?_, ?_⟩
  · rintro i n ⟨w, hw, hwa⟩
    obtain ⟨k, origin, hk, ho, -⟩ := hs.evolved i w n hw hwa
    exact ⟨k, origin, hk, ho⟩
  · intro k origin ho
    obtain ⟨i, hi⟩ := hs.complete k origin ho
    exact ⟨i, hi, fun j hj => hs.distinct j i k hj hi⟩

/-- A language with words 0, 2 and 3; word 1 was removed. -/
def proto : Language :=
  { Language.named "Proto" with
    vocab := ⟨[some (.entered "pata" "stone" 0 "" []), none, some (.entered "kapa" "tree" 0 "" []),
      some (.entered "tika" "rain" 1 "" [])]⟩ }

/-- A descendant with an inherited word, a removed one, a blend, and a word that names word `n`. -/
def isle (n : Int) : Language :=
  { Language.named "Isle" with
    vocab := ⟨[some (.entered "" "storm" 1 "" [⟨0, 3⟩]), none,
      some (.entered "pakapa" "petrified" 2 "" [⟨0, 0⟩, ⟨0, 2⟩]),
      some (.entered "" "cliff" 0 "" [⟨0, n⟩])]⟩
    surfaceRules := [⟨"a", "o"⟩] }

def isles (n : Int) : Project := ⟨⟨[some proto, some (isle n)]⟩, .empty⟩

theorem derive_isles : ((isles 0).derive .default 1 0).2 = .ok ⟨1, 0, [0, 3], [4]⟩ := rfl

theorem derive_merges_isles :
    ((isles 0).derive .default 1 0).2 = .ok ⟨1, 0, [0, 3], [4]⟩ ∧
      ∃ l a ps vocab unclaimed, (isles 0).language 1 = .ok l ∧ (isles 0).language 0 = .ok a ∧
        Descent.Merged ps 0 a.vocab l.vocab vocab [0, 3] unclaimed := by
  obtain ⟨l, a, ps, vocab, unclaimed, -, hl, ha, -, -, hm, -⟩ := derive_merges derive_isles
  exact ⟨derive_isles, l, a, ps, vocab, unclaimed, hl, ha, hm⟩

/-- A derivation repeated at once, in either mode, changes nothing: it inherits no word, and it
refreshes those that the first one refreshed or inherited. -/
theorem derive_idempotent {report : Descent.Report}
    (h : (p.derive c lang ancestor).2 = .ok report) (transactional : Bool) :
    (p.derive c lang ancestor).1.derive { c with transactional } lang ancestor =
        ((p.derive c lang ancestor).1,
          .ok ⟨lang, ancestor, report.fused ++ report.inherited, []⟩) ∧
      (report.fused ++ report.inherited).Pairwise (· < ·) := by
  obtain ⟨l, a, ps, vocab, unclaimed, hd, hp, hreport, hm⟩ := derive_returned h
  obtain ⟨hne, hl, ha, hps⟩ := derivation_eq_ok_iff.mp hd
  have hnonneg := (language_eq_ok_iff.mp hl).1
  have hinherited : report.inherited = List.range' l.vocab.size unclaimed.length := by rw [hreport]
  have hsorted : (report.fused ++ report.inherited).Pairwise (· < ·) := by
    rw [hinherited, List.pairwise_append]
    refine ⟨hm.fused_sorted, List.pairwise_lt_range', ?_⟩
    intro i hi j hj
    obtain ⟨n, w, hw, -⟩ := (hm.mem_fused i).mp hi
    have hlt := Slots.lt_size_of_find? hw
    have := (List.mem_range'_1.mp hj).1
    omega
  have hheirs : Descent.heirs ancestor vocab.items = report.fused ++ report.inherited := by
    refine (Descent.heirs_sorted ancestor vocab).eq_of_mem_iff hsorted ?_
    intro i
    rw [Descent.mem_heirs_items, List.mem_append, hm.mem_fused, hinherited, List.mem_range'_1]
    simp only [hm.claims_iff, exists_or]
    refine or_congr_right ?_
    constructor
    · rintro ⟨n, j, r, hr, rfl, -⟩
      have := (List.getElem?_eq_some_iff.mp hr).1
      omega
    · rintro ⟨hle, hlt⟩
      have hj : i - l.vocab.size < unclaimed.length := by omega
      exact ⟨_, _, _, List.getElem?_eq_getElem hj, by omega, rfl⟩
  refine ⟨?_, hsorted⟩
  rw [hp]
  have hl' : (p.withLanguage lang { l with ancestor := some ancestor, vocab }).language lang =
      .ok { l with ancestor := some ancestor, vocab } := language_withLanguage_same hl
  have hd' : (p.withLanguage lang { l with ancestor := some ancestor, vocab }).derivation
      { c with transactional } lang ancestor =
        .ok ({ l with ancestor := some ancestor, vocab }, a, ps) :=
    derivation_eq_ok_iff.mpr ⟨hne, hl', language_withLanguage_other ha hnonneg hne, hps⟩
  rw [derive_settled hd' hm.settled, hheirs]
  rw [withLanguage_self hl']

theorem derive_idempotent_isles :
    ((isles 0).derive .default 1 0).2 = .ok ⟨1, 0, [0, 3], [4]⟩ ∧
      ((isles 0).derive .default 1 0).1.derive { Config.default with transactional := false } 1 0 =
        (((isles 0).derive .default 1 0).1, .ok ⟨1, 0, [0, 3, 4], []⟩) :=
  ⟨derive_isles, (derive_idempotent derive_isles false).1⟩

end Project
end Neogrammar
