import Mathlib.Data.List.Nodup
import Neogrammar.Project.Check
import Neogrammar.Proofs.Project.Derivation

/-!
# Lineages

Walking up from a language through live ancestors ends or goes on for ever. With the indices seen
so far kept, the walk is known to go on as soon as one of them comes again, which it does within
as many steps as there are slots. Coordinates are resolved to live words of live languages.
-/
namespace Neogrammar.Project

variable {p : Project} {a b : Int} {seen : List Int}

/-- The ancestor that a live language has. -/
def parent? (p : Project) (a : Int) : Option Int :=
  if p.languages.isLive a then (p.languages.find? a.toNat).bind (·.ancestor) else none

/-- The ancestor `n` steps up. -/
def ancestor? (p : Project) : Nat → Int → Option Int
  | 0, a => some a
  | n + 1, a => (p.parent? a).bind (p.ancestor? n)

/-- Walking up through live languages never ends. -/
def Endless (p : Project) (a : Int) : Prop :=
  ∀ n, ∃ b, p.ancestor? n a = some b ∧ p.languages.isLive b = true

theorem Endless.live (h : p.Endless a) : p.languages.isLive a = true := by
  obtain ⟨b, hb, live⟩ := h 0
  cases hb
  exact live

theorem Endless.parent (h : p.Endless a) : ∃ b, p.parent? a = some b ∧ p.Endless b := by
  obtain ⟨c, hc, -⟩ := h 1
  obtain ⟨b, hb, -⟩ := Option.bind_eq_some_iff.mp hc
  refine ⟨b, hb, fun n => ?_⟩
  obtain ⟨d, hd, live⟩ := h (n + 1)
  rw [ancestor?, hb] at hd
  exact ⟨d, hd, live⟩

/-- Live languages each of whose parents is among them are walked for ever. -/
theorem endless_of_closed
    (closed : ∀ a ∈ seen, p.languages.isLive a = true ∧ ∃ b ∈ seen, p.parent? a = some b)
    (ha : a ∈ seen) : p.Endless a := by
  intro n
  induction n generalizing a with
  | zero => exact ⟨a, rfl, (closed a ha).1⟩
  | succ n ih =>
    obtain ⟨-, b, hb, parent⟩ := closed a ha
    rw [ancestor?, parent]
    exact ih hb

/-- A walk that comes to an index again goes on for ever from every index seen. -/
theorem endless_of_loops {fuel : Nat} {current : Option Int}
    (trail : ∀ a ∈ seen, p.languages.isLive a = true ∧
      (p.parent? a = current ∨ ∃ b ∈ seen, p.parent? a = some b))
    (h : p.loops fuel seen current = true) (ha : a ∈ seen) : p.Endless a := by
  induction fuel generalizing seen current with
  | zero => cases h
  | succ fuel ih =>
    cases current with
    | none => cases h
    | some c =>
      rw [loops] at h
      split at h
      · rename_i again
        have hc : c ∈ seen := by simpa using again
        refine endless_of_closed (fun a ha => ?_) ha
        obtain ⟨live, last | earlier⟩ := trail a ha
        · exact ⟨live, c, hc, last⟩
        · exact ⟨live, earlier⟩
      split at h
      · rename_i live
        refine ih ?_ h (List.mem_cons_of_mem c ha)
        rw [List.forall_mem_cons]
        refine ⟨⟨live, .inl (if_pos live)⟩, fun a ha => ?_⟩
        obtain ⟨live, last | ⟨b, hb, parent⟩⟩ := trail a ha
        · exact ⟨live, .inr ⟨c, List.mem_cons_self, last⟩⟩
        · exact ⟨live, .inr ⟨b, List.mem_cons_of_mem c hb, parent⟩⟩
      · cases h

/-- Live indices that differ are no more than there are live languages. -/
theorem length_le_items (distinct : seen.Nodup)
    (live : ∀ a ∈ seen, p.languages.isLive a = true) :
    seen.length ≤ p.languages.items.length := by
  have within : seen ⊆ p.languages.items.map fun e => (e.1 : Int) := by
    intro a ha
    have hl := live a ha
    rw [Slots.isLive, Bool.and_eq_true, decide_eq_true_eq, Option.isSome_iff_exists] at hl
    obtain ⟨nonneg, l, hl⟩ := hl
    exact List.mem_map.mpr ⟨(a.toNat, l), Slots.mem_items.mpr hl, Int.toNat_of_nonneg nonneg⟩
  simpa using distinct.length_le_of_subset within

/-- So they are no more than there are slots. -/
theorem length_le_size (distinct : seen.Nodup)
    (live : ∀ a ∈ seen, p.languages.isLive a = true) : seen.length ≤ p.languages.size :=
  Nat.le_trans (length_le_items distinct live)
    ((List.length_filterMap_le _ _).trans_eq List.length_zipIdx)

/-- An endless walk comes to an index again before the steps run out. -/
theorem loops_of_endless {fuel : Nat} (distinct : seen.Nodup)
    (live : ∀ a ∈ seen, p.languages.isLive a = true)
    (enough : p.languages.size < seen.length + fuel) (h : p.Endless a) :
    p.loops fuel seen (some a) = true := by
  induction fuel generalizing seen a with
  | zero =>
    have := length_le_size distinct live
    omega
  | succ fuel ih =>
    rw [loops]
    split
    · rfl
    · rename_i new
      obtain ⟨b, parent, hb⟩ := h.parent
      rw [parent?, if_pos h.live] at parent
      rw [if_pos h.live, parent]
      refine ih (List.nodup_cons.mpr ⟨by simpa using new, distinct⟩) ?_ ?_ hb
      · rw [List.forall_mem_cons]
        exact ⟨h.live, live⟩
      · rw [List.length_cons]
        omega

/-- Whether the walk from a live language comes to an index again says whether it never ends. -/
theorem endless_iff : p.Endless a ↔ p.languages.isLive a = true ∧
    p.loops (p.languages.size + 1) [a] (p.parent? a) = true := by
  constructor
  · intro h
    obtain ⟨b, parent, endless⟩ := h.parent
    rw [parent]
    have enough : p.languages.size < [a].length + (p.languages.size + 1) := by
      rw [List.length_singleton]
      omega
    refine ⟨h.live, loops_of_endless (List.nodup_singleton a) ?_ enough endless⟩
    exact List.forall_mem_singleton.mpr h.live
  · rintro ⟨live, h⟩
    refine endless_of_loops ?_ h List.mem_cons_self
    exact List.forall_mem_singleton.mpr ⟨live, .inl rfl⟩

instance (a : Int) : Decidable (p.Endless a) := decidable_of_iff _ endless_iff.symm

theorem hasAncestryCycle_eq {l : Language} {i : Nat} (hl : p.languages.find? i = some l) :
    p.hasAncestryCycle i = .ok (decide (p.Endless i)) := by
  have language : p.language i = .ok l := language_eq_ok_iff.mpr ⟨Int.natCast_nonneg i, hl⟩
  have live : p.languages.isLive i = true := by simp [Slots.isLive, hl]
  have parent : p.parent? i = l.ancestor := by simp [parent?, live, hl]
  rw [hasAncestryCycle, language, ok_bind, ← parent]
  simp only [endless_iff, live, true_and, Bool.decide_eq_true, pure_eq_ok]

/-- A coordinate names a live word of a live language. -/
def Names (p : Project) (c : Coordinate) : Prop :=
  ∃ (i j : Nat) (l : Language) (w : Word),
    c = ⟨i, j⟩ ∧ p.languages.find? i = some l ∧ l.vocab.find? j = some w

theorem names_iff {c : Coordinate} : p.Names c ↔ ∃ w, p.resolve c = .ok w := by
  constructor
  · rintro ⟨i, j, l, w, rfl, hl, hw⟩
    refine ⟨w, bind_eq_ok_iff.mpr ⟨l, ?_, ?_⟩⟩
    · exact language_eq_ok_iff.mpr ⟨Int.natCast_nonneg i, hl⟩
    · exact Slots.get_int_eq_ok_iff.mpr ⟨Int.natCast_nonneg j, hw⟩
  · rintro ⟨w, hw⟩
    obtain ⟨l, hl, hw⟩ := bind_eq_ok_iff.mp hw
    obtain ⟨hi, hl⟩ := language_eq_ok_iff.mp hl
    obtain ⟨hj, hw⟩ := Slots.get_int_eq_ok_iff.mp hw
    refine ⟨c.lang.toNat, c.word.toNat, l, w, ?_, hl, hw⟩
    rw [Int.toNat_of_nonneg hi, Int.toNat_of_nonneg hj]

instance (c : Coordinate) : Decidable (p.Names c) :=
  match h : p.resolve c with
  | .ok w => .isTrue (names_iff.mpr ⟨w, h⟩)
  | .error e => .isFalse fun names => by
    obtain ⟨w, hw⟩ := names_iff.mp names
    rw [h] at hw
    cases hw

end Neogrammar.Project
