import Neogrammar.Descent
import Neogrammar.Proofs.Slots

/-!
# Refreshing inherited words

The scan over a vocabulary takes, in order, the words with exactly one coordinate into the ancestor
and consumes from the queue the word that each of them claims. `Refreshed` says what a scan that
comes to the end has done, `refresh_failed` how any other scan stops.
-/
namespace Neogrammar.Descent

variable {ancestor : Int} {ps : Pipelines} {i : Nat} {w : Word} {c : Coordinate}
variable {items rest : List (Nat × Word)} {queue left : List (Option Word)}
variable {fuses : List (Nat × Word)}

theorem coordinateInto?_eq_some_iff :
    coordinateInto? ancestor w = some c ↔ w.ancestors = [c] ∧ c.lang = ancestor := by
  unfold coordinateInto?
  split
  · rename_i d hd
    by_cases h : d.lang = ancestor
    · simp only [if_pos h, Option.some.injEq, hd, List.cons.injEq, and_true]
      constructor
      · intro he
        exact ⟨he, he ▸ h⟩
      · exact And.left
    · simp only [if_neg h, reduceCtorEq, hd, List.cons.injEq, and_true, false_iff]
      rintro ⟨he, hl⟩
      exact h (he ▸ hl)
  · rename_i hw
    simp only [reduceCtorEq, false_iff]
    rintro ⟨he, -⟩
    exact hw c he

theorem waiting?_eq_some_iff {n : Int} :
    waiting? queue n = some w ↔ 0 ≤ n ∧ (⟨queue⟩ : Slots Word).find? n.toNat = some w := by
  by_cases h : 0 ≤ n <;> simp [waiting?, Slots.find?, h]

theorem waiting?_neg {n : Int} (h : n < 0) : waiting? queue n = none := by
  simp only [waiting?, if_neg (Int.not_le.mpr h)]

/-- Consuming a word leaves every other one waiting. -/
theorem waiting?_set {n : Int} (hn : 0 ≤ n) (m : Int) :
    waiting? (queue.set n.toNat none) m = if m = n then none else waiting? queue m := by
  by_cases hm : 0 ≤ m
  · simp only [waiting?, if_pos hm]
    by_cases he : m = n
    · subst he
      by_cases hl : m.toNat < queue.length <;> simp [hl]
    · rw [if_neg he, List.getElem?_set_ne (by omega)]
  · rw [waiting?_neg (by omega), waiting?_neg (by omega), ite_self]

/-- The indices that words claim in the ancestor, in the order of these words. -/
def claims (ancestor : Int) (items : List (Nat × Word)) : List Int :=
  items.filterMap fun e => (coordinateInto? ancestor e.2).map (·.word)

/-- The indices of the words that claim one of the ancestor. -/
def heirs (ancestor : Int) (items : List (Nat × Word)) : List Nat :=
  (items.filter fun e => (coordinateInto? ancestor e.2).isSome).map (·.1)

theorem claims_skip (h : coordinateInto? ancestor w = none) :
    claims ancestor ((i, w) :: rest) = claims ancestor rest := by simp [claims, h]

theorem claims_take (h : coordinateInto? ancestor w = some c) :
    claims ancestor ((i, w) :: rest) = c.word :: claims ancestor rest := by simp [claims, h]

theorem heirs_skip (h : coordinateInto? ancestor w = none) :
    heirs ancestor ((i, w) :: rest) = heirs ancestor rest := by simp [heirs, h]

theorem heirs_take (h : coordinateInto? ancestor w = some c) :
    heirs ancestor ((i, w) :: rest) = i :: heirs ancestor rest := by simp [heirs, h]

theorem mem_claims {n : Int} :
    n ∈ claims ancestor items ↔ ∃ i w, (i, w) ∈ items ∧ w.ancestors = [⟨ancestor, n⟩] := by
  simp only [claims, List.mem_filterMap, Option.map_eq_some_iff, coordinateInto?_eq_some_iff]
  constructor
  · rintro ⟨⟨i, w⟩, hm, ⟨l, n⟩, ⟨hw, rfl⟩, rfl⟩
    exact ⟨i, w, hm, hw⟩
  · rintro ⟨i, w, hm, hw⟩
    exact ⟨(i, w), hm, ⟨ancestor, n⟩, ⟨hw, rfl⟩, rfl⟩

theorem mem_heirs :
    i ∈ heirs ancestor items ↔ ∃ w n, (i, w) ∈ items ∧ w.ancestors = [⟨ancestor, n⟩] := by
  simp only [heirs, List.mem_map, List.mem_filter, Option.isSome_iff_exists,
    coordinateInto?_eq_some_iff]
  constructor
  · rintro ⟨⟨i, w⟩, ⟨hm, ⟨l, n⟩, hw, rfl⟩, rfl⟩
    exact ⟨w, n, hm, hw⟩
  · rintro ⟨w, n, hm, hw⟩
    exact ⟨(i, w), ⟨hm, ⟨ancestor, n⟩, hw, rfl⟩, rfl⟩

/-! ## Single steps of the scan -/

theorem refresh_skip (h : coordinateInto? ancestor w = none) :
    refresh ancestor ps ((i, w) :: rest) queue = refresh ancestor ps rest queue := by
  simp only [refresh, h]

theorem refresh_ghost (h : coordinateInto? ancestor w = some c)
    (hq : waiting? queue c.word = none) :
    refresh ancestor ps ((i, w) :: rest) queue = ([], .error (.ghost i)) := by
  simp only [refresh, h, hq]

theorem refresh_error {source : Word} {e : Error} (h : coordinateInto? ancestor w = some c)
    (hq : waiting? queue c.word = some source) (hd : descendant source c ps = .error e) :
    refresh ancestor ps ((i, w) :: rest) queue = ([], .error e) := by
  simp only [refresh, h, hq, hd]

theorem refresh_take {source derived : Word} (h : coordinateInto? ancestor w = some c)
    (hq : waiting? queue c.word = some source) (hd : descendant source c ps = .ok derived) :
    refresh ancestor ps ((i, w) :: rest) queue =
      ((i, derived) :: (refresh ancestor ps rest (queue.set c.word.toNat none)).1,
        (refresh ancestor ps rest (queue.set c.word.toNat none)).2) := by
  simp only [refresh, h, hq, hd]

/-! ## Whole scans -/

/-- What a scan to the end has done. -/
structure Refreshed (ancestor : Int) (ps : Pipelines) (items : List (Nat × Word))
    (queue : List (Option Word)) (fuses : List (Nat × Word)) (left : List (Option Word)) :
    Prop where
  indices : fuses.map (·.1) = heirs ancestor items
  fused : ∀ i w c, (i, w) ∈ items → coordinateInto? ancestor w = some c →
    ∃ source derived, waiting? queue c.word = some source ∧
      descendant source c ps = .ok derived ∧ (i, derived) ∈ fuses
  distinct : (claims ancestor items).Nodup
  waiting : ∀ n, waiting? left n =
    if n ∈ claims ancestor items then none else waiting? queue n

theorem Refreshed.done (queue : List (Option Word)) : Refreshed ancestor ps [] queue [] queue where
  indices := rfl
  fused := by simp
  distinct := List.nodup_nil
  waiting := by simp [claims]

theorem Refreshed.skip (hc : coordinateInto? ancestor w = none)
    (h : Refreshed ancestor ps rest queue fuses left) :
    Refreshed ancestor ps ((i, w) :: rest) queue fuses left where
  indices := by rw [heirs_skip hc]; exact h.indices
  fused := by
    intro j v d hm hd
    rcases List.mem_cons.mp hm with he | hm
    · cases he
      rw [hc] at hd
      cases hd
    · exact h.fused j v d hm hd
  distinct := by rw [claims_skip hc]; exact h.distinct
  waiting := by rw [claims_skip hc]; exact h.waiting

theorem Refreshed.take {source derived : Word} (hc : coordinateInto? ancestor w = some c)
    (hq : waiting? queue c.word = some source) (hd : descendant source c ps = .ok derived)
    (h : Refreshed ancestor ps rest (queue.set c.word.toNat none) fuses left) :
    Refreshed ancestor ps ((i, w) :: rest) queue ((i, derived) :: fuses) left := by
  have hn : 0 ≤ c.word := (waiting?_eq_some_iff.mp hq).1
  -- a word further on finds another word of the queue than the one consumed here
  have hother : ∀ j v d, (j, v) ∈ rest → coordinateInto? ancestor v = some d → d.word ≠ c.word := by
    intro j v d hm hv he
    obtain ⟨s, -, hs, -⟩ := h.fused j v d hm hv
    rw [waiting?_set hn, if_pos he] at hs
    cases hs
  constructor
  · rw [heirs_take hc, List.map_cons, h.indices]
  · intro j v d hm hv
    rcases List.mem_cons.mp hm with he | hm
    · cases he
      cases hc.symm.trans hv
      exact ⟨source, derived, hq, hd, List.mem_cons_self⟩
    · obtain ⟨s, e, hs, he, hf⟩ := h.fused j v d hm hv
      rw [waiting?_set hn, if_neg (hother j v d hm hv)] at hs
      exact ⟨s, e, hs, he, List.mem_cons_of_mem _ hf⟩
  · rw [claims_take hc, List.nodup_cons]
    refine ⟨?_, h.distinct⟩
    intro hm
    obtain ⟨j, v, hj, hv⟩ := mem_claims.mp hm
    exact hother j v ⟨ancestor, c.word⟩ hj (coordinateInto?_eq_some_iff.mpr ⟨hv, rfl⟩) rfl
  · intro n
    rw [claims_take hc, h.waiting, waiting?_set hn]
    by_cases hm : n ∈ claims ancestor rest <;> by_cases he : n = c.word <;> simp [hm, he]

theorem refreshed_of_ok (h : refresh ancestor ps items queue = (fuses, .ok left)) :
    Refreshed ancestor ps items queue fuses left := by
  induction items generalizing queue fuses with
  | nil =>
    simp only [refresh, Prod.mk.injEq, Except.ok.injEq] at h
    obtain ⟨rfl, rfl⟩ := h
    exact .done queue
  | cons item rest ih =>
    obtain ⟨i, w⟩ := item
    cases hc : coordinateInto? ancestor w with
    | none =>
      rw [refresh_skip hc] at h
      exact .skip hc (ih h)
    | some c =>
      cases hq : waiting? queue c.word with
      | none =>
        rw [refresh_ghost hc hq] at h
        cases h
      | some source =>
        cases hd : descendant source c ps with
        | error e =>
          rw [refresh_error hc hq hd] at h
          cases h
        | ok derived =>
          rw [refresh_take hc hq hd] at h
          obtain ⟨rfl, hl⟩ := Prod.mk.inj h
          exact .take hc hq hd (ih (Prod.ext rfl hl))

/-- Every fuse comes from a word with a claim. -/
theorem Refreshed.of_mem_fuses (h : Refreshed ancestor ps items queue fuses left)
    (hsorted : (fuses.map (·.1)).Pairwise (· < ·)) {f : Nat × Word} (hf : f ∈ fuses) :
    ∃ w c source, (f.1, w) ∈ items ∧ coordinateInto? ancestor w = some c ∧
      waiting? queue c.word = some source ∧ descendant source c ps = .ok f.2 := by
  have hm : f.1 ∈ heirs ancestor items := h.indices ▸ List.mem_map.mpr ⟨f, hf, rfl⟩
  obtain ⟨w, n, hw, ha⟩ := mem_heirs.mp hm
  have hc : coordinateInto? ancestor w = some ⟨ancestor, n⟩ :=
    coordinateInto?_eq_some_iff.mpr ⟨ha, rfl⟩
  obtain ⟨source, derived, hs, hd, hf'⟩ := h.fused f.1 w _ hw hc
  have he : f = (f.1, derived) :=
    List.inj_on_of_nodup_map (hsorted.imp Nat.ne_of_lt) hf hf' rfl
  have hd' : f.2 = derived := congrArg Prod.snd he
  exact ⟨w, _, source, hw, hc, hs, hd' ▸ hd⟩

/-- A scan comes to its end if the claims are distinct and each can be met. -/
theorem refresh_returns (hdistinct : (claims ancestor items).Nodup)
    (hmet : ∀ i w c, (i, w) ∈ items → coordinateInto? ancestor w = some c →
      ∃ source derived, waiting? queue c.word = some source ∧
        descendant source c ps = .ok derived) :
    ∃ fuses left, refresh ancestor ps items queue = (fuses, .ok left) := by
  induction items generalizing queue with
  | nil => exact ⟨[], queue, rfl⟩
  | cons item rest ih =>
    obtain ⟨i, w⟩ := item
    have hrest : ∀ j v d, (j, v) ∈ rest → coordinateInto? ancestor v = some d →
        ∃ source derived, waiting? queue d.word = some source ∧
          descendant source d ps = .ok derived :=
      fun j v d hm => hmet j v d (List.mem_cons_of_mem _ hm)
    cases hc : coordinateInto? ancestor w with
    | none =>
      rw [claims_skip hc] at hdistinct
      rw [refresh_skip hc]
      exact ih hdistinct hrest
    | some c =>
      obtain ⟨source, derived, hq, hd⟩ := hmet i w c List.mem_cons_self hc
      have hn : 0 ≤ c.word := (waiting?_eq_some_iff.mp hq).1
      rw [claims_take hc, List.nodup_cons] at hdistinct
      obtain ⟨fuses, left, hr⟩ : ∃ fuses left,
          refresh ancestor ps rest (queue.set c.word.toNat none) = (fuses, .ok left) := by
        apply ih hdistinct.2
        intro j v d hm hv
        obtain ⟨s, e, hs, he⟩ := hrest j v d hm hv
        have hne : d.word ≠ c.word := by
          intro heq
          obtain ⟨hv', hl⟩ := coordinateInto?_eq_some_iff.mp hv
          exact hdistinct.1 (mem_claims.mpr ⟨j, v, hm, by rw [hv', ← heq, ← hl]⟩)
        exact ⟨s, e, by rw [waiting?_set hn, if_neg hne]; exact hs, he⟩
      refine ⟨(i, derived) :: fuses, left, ?_⟩
      rw [refresh_take hc hq hd, hr]

/-- A scan stops at the first word whose claim cannot be met: nothing waits at that index, or the
word there has no descendant. The words before it were refreshed. -/
theorem refresh_failed {e : Error} (h : refresh ancestor ps items queue = (fuses, .error e)) :
    ∃ before i w c after left, items = before ++ (i, w) :: after ∧
      refresh ancestor ps before queue = (fuses, .ok left) ∧ coordinateInto? ancestor w = some c ∧
      ((waiting? left c.word = none ∧ e = .ghost i) ∨
        ∃ source, waiting? left c.word = some source ∧ descendant source c ps = .error e) := by
  induction items generalizing queue fuses with
  | nil => cases h
  | cons item rest ih =>
    obtain ⟨i, w⟩ := item
    cases hc : coordinateInto? ancestor w with
    | none =>
      rw [refresh_skip hc] at h
      obtain ⟨before, j, v, d, after, left, rfl, hr, hv, hstop⟩ := ih h
      exact ⟨(i, w) :: before, j, v, d, after, left, rfl, by rw [refresh_skip hc, hr], hv, hstop⟩
    | some c =>
      cases hq : waiting? queue c.word with
      | none =>
        rw [refresh_ghost hc hq] at h
        cases h
        exact ⟨[], i, w, c, rest, queue, rfl, rfl, hc, .inl ⟨hq, rfl⟩⟩
      | some source =>
        cases hd : descendant source c ps with
        | error e =>
          rw [refresh_error hc hq hd] at h
          cases h
          exact ⟨[], i, w, c, rest, queue, rfl, rfl, hc, .inr ⟨source, hq, hd⟩⟩
        | ok derived =>
          rw [refresh_take hc hq hd] at h
          obtain ⟨rfl, he⟩ := Prod.mk.inj h
          obtain ⟨before, j, v, d, after, left, rfl, hr, hv, hstop⟩ := ih (Prod.ext rfl he)
          refine ⟨(i, w) :: before, j, v, d, after, left, rfl, ?_, hv, hstop⟩
          rw [refresh_take hc hq hd, hr]

end Neogrammar.Descent
