import Mathlib.Data.List.Pairwise
import Neogrammar.Proofs.Descent.Refresh

/-!
# Claims of a vocabulary

A word with exactly one coordinate, into the ancestor, claims the word that it names. Where no word
is claimed twice, any two words of the vocabulary are apart.
-/
namespace Neogrammar.Descent

variable {ancestor : Int} {vocab : Slots Word}

/-- The word at index `i` has exactly one coordinate, and it names word `n` of the ancestor. -/
def Claims (ancestor : Int) (vocab : Slots Word) (i : Nat) (n : Int) : Prop :=
  ∃ w, vocab.find? i = some w ∧ w.ancestors = [⟨ancestor, n⟩]

theorem mem_claims_items {n : Int} :
    n ∈ claims ancestor vocab.items ↔ ∃ i, Claims ancestor vocab i n := by
  simp only [mem_claims, Slots.mem_items, Claims]

theorem mem_heirs_items {i : Nat} :
    i ∈ heirs ancestor vocab.items ↔ ∃ n, Claims ancestor vocab i n := by
  simp only [mem_heirs, Slots.mem_items, Claims]
  exact exists_comm

theorem heirs_sorted (ancestor : Int) (vocab : Slots Word) :
    (heirs ancestor vocab.items).Pairwise (· < ·) :=
  List.pairwise_map.mpr (vocab.items_sorted.filter _)

/-- Two words claim different words of the ancestor, if they claim any. -/
def Apart (ancestor : Int) (v w : Word) : Prop :=
  ∀ n, v.ancestors = [⟨ancestor, n⟩] → w.ancestors ≠ [⟨ancestor, n⟩]

theorem Apart.symm {v w : Word} (h : Apart ancestor v w) : Apart ancestor w v :=
  fun n hw hv => h n hv hw

theorem nodup_claims_iff_pairwise {items : List (Nat × Word)} :
    (claims ancestor items).Nodup ↔ items.Pairwise fun e f => Apart ancestor e.2 f.2 := by
  induction items with
  | nil => simp [claims]
  | cons item rest ih =>
    obtain ⟨i, w⟩ := item
    rw [List.pairwise_cons, ← ih]
    cases hc : coordinateInto? ancestor w with
    | none =>
      rw [claims_skip hc]
      refine ⟨fun h => ⟨?_, h⟩, And.right⟩
      intro f _ n hw
      rw [coordinateInto?_eq_some_iff.mpr ⟨hw, rfl⟩] at hc
      cases hc
    | some c =>
      obtain ⟨hw, hl⟩ := coordinateInto?_eq_some_iff.mp hc
      rw [claims_take hc, List.nodup_cons]
      refine and_congr_left fun _ => ?_
      constructor
      · intro hn f hf n hv ha
        rw [hw] at hv
        cases hv
        exact hn (mem_claims.mpr ⟨f.1, f.2, hf, ha⟩)
      · intro h hm
        obtain ⟨j, v, hj, hv⟩ := mem_claims.mp hm
        exact h (j, v) hj c.word (by rw [hw, ← hl]) hv

/-- Among distinct claims, a word of the ancestor is claimed once. -/
theorem eq_of_claims_nodup {items : List (Nat × Word)} (h : (claims ancestor items).Nodup)
    {e f : Nat × Word} {n : Int} (he : e ∈ items) (hf : f ∈ items)
    (hea : e.2.ancestors = [⟨ancestor, n⟩]) (hfa : f.2.ancestors = [⟨ancestor, n⟩]) : e = f := by
  by_contra hne
  have : Std.Symm fun e f : Nat × Word => Apart ancestor e.2 f.2 := ⟨fun _ _ => Apart.symm⟩
  exact (nodup_claims_iff_pairwise.mp h).forall he hf hne n hea hfa

theorem nodup_claims_iff :
    (claims ancestor vocab.items).Nodup ↔
      ∀ i j n, Claims ancestor vocab i n → Claims ancestor vocab j n → i = j := by
  constructor
  · rintro h i j n ⟨v, hv, hva⟩ ⟨w, hw, hwa⟩
    have he : ((i, v) : Nat × Word) = (j, w) :=
      eq_of_claims_nodup h (Slots.mem_items.mpr hv) (Slots.mem_items.mpr hw) hva hwa
    exact congrArg Prod.fst he
  · intro h
    rw [nodup_claims_iff_pairwise]
    refine vocab.items_sorted.imp_of_mem ?_
    intro e f he hf hlt n hv hw
    exact Nat.ne_of_lt hlt (h e.1 f.1 n ⟨e.2, Slots.mem_items.mp he, hv⟩
      ⟨f.2, Slots.mem_items.mp hf, hw⟩)

end Neogrammar.Descent
