import Mathlib.Data.List.Sort
import Neogrammar.Slots
import Neogrammar.Proofs.Outcome

/-!
# Laws of slots

Slots are seen through `find?`: which index has a content, and which. The items are these contents
in ascending order of their indices.
-/
namespace Neogrammar

/-! ## Places -/

section

variable {index : Datum} {length : Nat}

/-- A whole number is out of range or addresses a place. -/
theorem locate_whole {n : Int} (whole : index.whole? = some n) (length : Nat) :
    locate index length =
      if 0 ≤ n ∧ n < length then .ok n.toNat else .error (.outOfRange index length) := by
  cases index <;> simp_all [Datum.whole?, locate, Datum.quantity?]

/-- Nothing but a whole number addresses a place. -/
theorem whole_of_locate {i : Nat} (found : locate index length = .ok i) :
    index.whole? = some (i : Int) ∧ i < length := by
  cases whole : index.whole? with
  | some n =>
    rw [locate_whole whole] at found
    split at found
    · rename_i inside
      cases found
      rw [Option.some_inj]
      omega
    · cases found
  | none =>
    exfalso
    cases index with
    | bool | int => cases whole
    | real x =>
      simp only [locate, Datum.quantity?] at found
      split at found <;> cases found
    | null | text | time | list | map => cases found

end

/-! ## Contents -/

namespace Slots

variable {α : Type} {s : Slots α} {i : Nat} {a : α}

theorem find?_eq_some_iff : s.find? i = some a ↔ s.cells[i]? = some (some a) := by
  simp [find?, Option.join_eq_some_iff]

theorem lt_size_of_find? (h : s.find? i = some a) : i < s.size :=
  (List.getElem?_eq_some_iff.mp (find?_eq_some_iff.mp h)).1

theorem find?_of_size_le (h : s.size ≤ i) : s.find? i = none := by
  rw [find?, List.getElem?_eq_none h, Option.join_none]

theorem find?_push (s : Slots α) (cell : Option α) (i : Nat) :
    (s.push cell).find? i = if s.size = i then cell else s.find? i := by
  rcases Nat.lt_trichotomy i s.size with lower | rfl | upper
  · rw [find?_push_lt s cell lower, if_neg (Nat.ne_of_gt lower)]
  · rw [find?_push_size, if_pos rfl]
  · rw [if_neg (Nat.ne_of_lt upper), find?_of_size_le (Nat.le_of_lt upper)]
    exact find?_of_size_le (by rw [size_push]; exact upper)

theorem find?_put (inside : i < s.size) (cell : Option α) (j : Nat) :
    (s.put i cell).find? j = if i = j then cell else s.find? j := by
  split
  · rename_i same
    rw [← same, find?_put_same s cell inside]
  · rename_i other
    exact find?_put_other s cell other

theorem mem_items : (i, a) ∈ s.items ↔ s.find? i = some a := by
  simp [items, find?_eq_some_iff, List.mem_zipIdx_iff_getElem?]

theorem items_sorted (s : Slots α) : s.items.Pairwise fun e f => e.1 < f.1 := by
  refine List.Pairwise.filterMap _ (R := fun e f => e.2 < f.2) ?_ ?_
  · intro e f hlt b hb d hd
    cases he : e.1 <;> cases hf : f.1 <;> simp_all
    subst hb hd
    exact hlt
  · have hr : (s.cells.zipIdx.map (·.2)).Pairwise (· < ·) := by
      rw [List.zipIdx_map_snd]
      exact List.pairwise_lt_range'
    exact List.pairwise_map.mp hr

/-- What stands before an item are the items with lower indices. -/
theorem mem_items_before {before after : List (Nat × α)} {j : Nat} {b : α}
    (h : s.items = before ++ (i, a) :: after) :
    (j, b) ∈ before ↔ s.find? j = some b ∧ j < i := by
  have hs := s.items_sorted
  rw [h, List.pairwise_append, List.pairwise_cons] at hs
  obtain ⟨-, ⟨hafter, -⟩, hbefore⟩ := hs
  rw [← mem_items, h, List.mem_append, List.mem_cons]
  constructor
  · intro hm
    exact ⟨.inl hm, hbefore _ hm _ List.mem_cons_self⟩
  · rintro ⟨hm | he | hm, hlt⟩
    · exact hm
    · cases he
      exact absurd hlt (Nat.lt_irrefl i)
    · exact absurd hlt (Nat.lt_asymm (hafter _ hm))

/-- The index that is found is that of the first content with the property. -/
theorem findIndex?_eq_some_iff {p : α → Bool} :
    s.findIndex? p = some i ↔ (∃ a, s.find? i = some a ∧ p a = true) ∧
      ∀ j < i, ∀ b, s.find? j = some b → p b = false := by
  rw [findIndex?, Option.map_eq_some_iff]
  constructor
  · rintro ⟨⟨j, a⟩, found, rfl⟩
    obtain ⟨here, before, after, parts, others⟩ := List.find?_eq_some_iff_append.mp found
    refine ⟨⟨a, mem_items.mp (List.mem_of_find?_eq_some found), here⟩, fun j lower b hb => ?_⟩
    simpa using others (j, b) ((mem_items_before parts).mpr ⟨hb, lower⟩)
  · rintro ⟨⟨a, ha, here⟩, first⟩
    obtain ⟨before, after, parts⟩ := List.append_of_mem (mem_items.mpr ha)
    refine ⟨(i, a), List.find?_eq_some_iff_append.mpr ⟨here, before, after, parts, ?_⟩, rfl⟩
    rintro ⟨j, b⟩ hj
    obtain ⟨hb, lower⟩ := (mem_items_before parts).mp hj
    simp [first j lower b hb]

theorem findIndex?_eq_none_iff {p : α → Bool} :
    s.findIndex? p = none ↔ ∀ i a, s.find? i = some a → p a = false := by
  rw [findIndex?, Option.map_eq_none_iff, List.find?_eq_none]
  constructor
  · intro none i a ha
    simpa using none (i, a) (mem_items.mpr ha)
  · rintro none ⟨i, a⟩ hi
    simp [none i a (mem_items.mp hi)]

/-- The items of some cells whose first index is `k`. -/
def itemsFrom (k : Nat) (cells : List (Option α)) : List (Nat × α) :=
  (cells.zipIdx k).filterMap fun e => e.1.map fun a => (e.2, a)

theorem items_eq_itemsFrom (cells : List (Option α)) :
    (⟨cells⟩ : Slots α).items = itemsFrom 0 cells := rfl

@[simp] theorem itemsFrom_nil (k : Nat) : itemsFrom k ([] : List (Option α)) = [] := rfl

@[simp] theorem itemsFrom_none (k : Nat) (cells : List (Option α)) :
    itemsFrom k (none :: cells) = itemsFrom (k + 1) cells := rfl

@[simp] theorem itemsFrom_some (k : Nat) (a : α) (cells : List (Option α)) :
    itemsFrom k (some a :: cells) = (k, a) :: itemsFrom (k + 1) cells := rfl

theorem find?_append_lt (cells : List (Option α)) (h : i < s.size) :
    (⟨s.cells ++ cells⟩ : Slots α).find? i = s.find? i := by
  simp only [size] at h
  simp [find?, List.getElem?_append_left h]

theorem find?_append_size (cells : List (Option α)) (i : Nat) :
    (⟨s.cells ++ cells⟩ : Slots α).find? (s.size + i) = cells[i]?.join := by
  simp [find?, size, List.getElem?_append_right (Nat.le_add_right _ i)]

/-- After a push, an index has its old content or is the new one. -/
theorem find?_push_cases {cell : Option α} (h : (s.push cell).find? i = some a) :
    s.find? i = some a ∨ i = s.size ∧ cell = some a := by
  rw [find?_push] at h
  split at h
  · rename_i last
    exact .inr ⟨last.symm, h⟩
  · exact .inl h

/-- After a cell is overwritten, an index has its old content or is that of the cell. -/
theorem find?_put_cases {cell : Option α} {j : Nat} (h : (s.put i cell).find? j = some a) :
    j ≠ i ∧ s.find? j = some a ∨ j = i ∧ cell = some a := by
  by_cases hj : j = i
  · subst hj
    have hlt : j < s.size := (lt_size_of_find? h).trans_eq (size_put s j cell)
    exact .inr ⟨rfl, (find?_put_same s cell hlt).symm.trans h⟩
  · exact .inl ⟨hj, (find?_put_other s cell (Ne.symm hj)).symm.trans h⟩

/-- Writing back what a cell holds changes nothing. -/
theorem put_find? (h : s.find? i = some a) : s.put i (some a) = s := by
  obtain ⟨hi, hc⟩ := List.getElem?_eq_some_iff.mp (find?_eq_some_iff.mp h)
  simp only [put]
  congr 1
  rw [← hc]
  exact List.set_getElem_self hi

theorem get_int_eq_ok_iff {n : Int} :
    s.get (.int n) = .ok a ↔ 0 ≤ n ∧ s.find? n.toNat = some a := by
  simp only [get, locate_int, bind_eq_ok_iff]
  constructor
  · rintro ⟨i, hi, hg⟩
    split at hi
    · rename_i hn
      cases hi
      refine ⟨hn.1, ?_⟩
      cases hf : s.find? n.toNat with
      | none => simp [hf] at hg
      | some b =>
        rw [hf] at hg
        cases hg
        rfl
    · cases hi
  · rintro ⟨hn, hf⟩
    have hlt := lt_size_of_find? hf
    refine ⟨n.toNat, ?_, by simp [hf, pure, Except.pure]⟩
    rw [if_pos ⟨hn, by omega⟩]

end Slots
end Neogrammar
