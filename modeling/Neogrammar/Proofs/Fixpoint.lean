import Mathlib.Logic.Function.Iterate
import Mathlib.Order.Bounds.Basic
import Mathlib.Order.Nat
import Neogrammar.Proofs.Substitution

/-!
# Where a run comes to rest

The texts of a run follow one another pass by pass. The run returns the first text that a pass
leaves alone, as long as that pass is still granted and no text on the way is longer than the bound
that the first one sets. Otherwise it is stopped: at the first text past the bound, or when its
passes are spent.
-/
namespace Neogrammar.Substitution

variable {s : Substitution} {text r : String} {bound : Int} {n left done j k : Nat}

/-- The text after `n` passes. -/
def after (s : Substitution) (text : String) (n : Nat) : String := s.applyOnce^[n] text

theorem after_succ (s : Substitution) (text : String) (n : Nat) :
    s.after text (n + 1) = s.applyOnce (s.after text n) :=
  Function.iterate_succ_apply' s.applyOnce n text

/-- A pass that leaves the text alone comes after `k` passes. -/
def Rests (s : Substitution) (text : String) (k : Nat) : Prop :=
  s.after text (k + 1) = s.after text k

/-- A text at rest stays as it is. -/
theorem Rests.after_add (h : s.Rests text k) (d : Nat) : s.after text (k + d) = s.after text k := by
  induction d with
  | zero => rfl
  | succ d ih => rw [← Nat.add_assoc, after_succ, ih, ← after_succ, h]

/-- Pass `j`, counted from one, changes the text to one that is longer than the bound. -/
def Outgrows (s : Substitution) (text : String) (j : Nat) : Prop :=
  1 ≤ j ∧ s.after text j ≠ s.after text (j - 1) ∧
    s.limits.maxLength text.length < (s.after text j).length

/-- What a run comes to. -/
inductive Outcome (s : Substitution) (text : String) : Except Error String → Prop
  /-- The first text that a pass leaves alone, where this pass is granted too. -/
  | settled {k : Nat} (rests : IsLeast {k | s.Rests text k} k)
      (granted : (k : Int) < s.limits.maxIterations)
      (short : ∀ j, 1 ≤ j → j ≤ k → (s.after text j).length ≤ s.limits.maxLength text.length) :
      Outcome s text (.ok (s.after text k))
  /-- The first pass that makes the text too long stops the run. -/
  | outgrown {j : Nat}
      (first : IsLeast {j : Nat | (j : Int) ≤ s.limits.maxIterations ∧ s.Outgrows text j} j) :
      Outcome s text (.error (.diverges s.pattern j (some (s.limits.maxLength text.length))))
  /-- The text still changes in every pass that is granted. -/
  | spent (moves : ∀ k : Nat, (k : Int) < s.limits.maxIterations → ¬s.Rests text k)
      (short : ∀ j : Nat, (j : Int) ≤ s.limits.maxIterations → ¬s.Outgrows text j) :
      Outcome s text (.error (.diverges s.pattern s.limits.maxIterations none))

/-! ## Pass by pass -/

/-- A pass that changes the text and keeps it within the bound hands it on. -/
theorem passes_succ (moves : s.applyOnce text ≠ text)
    (short : (s.applyOnce text).length ≤ bound) :
    s.passes bound (left + 1) done text = s.passes bound left (done + 1) (s.applyOnce text) := by
  rw [passes]
  exact (if_neg moves).trans (if_neg (Int.not_lt.mpr short))

/-- So do any number of such passes. -/
theorem passes_add (moves : ∀ k < n, ¬s.Rests text k)
    (short : ∀ k < n, (s.after text (k + 1)).length ≤ bound) :
    s.passes bound (n + left) done text = s.passes bound left (done + n) (s.after text n) := by
  induction n generalizing left with
  | zero => rw [Nat.zero_add, Nat.add_zero]; rfl
  | succ n ih =>
    have before : s.passes bound (n + (left + 1)) done text =
        s.passes bound (left + 1) (done + n) (s.after text n) :=
      ih (fun k hk => moves k (Nat.lt_succ_of_lt hk)) fun k hk => short k (Nat.lt_succ_of_lt hk)
    have moved : s.applyOnce (s.after text n) ≠ s.after text n := by
      rw [← after_succ]
      exact moves n (Nat.lt_succ_self n)
    have within := short n (Nat.lt_succ_self n)
    rw [after_succ] at within
    rw [Nat.succ_add_eq_add_succ, before, passes_succ moved within, after_succ, Nat.add_assoc]

/-- A pass that changes a text to one within the bound. -/
theorem short_of_not_outgrows (moves : ¬s.Rests text k) (h : ¬s.Outgrows text (k + 1)) :
    (s.after text (k + 1)).length ≤ s.limits.maxLength text.length :=
  Int.not_lt.mp fun long => h ⟨Nat.succ_pos k, moves, long⟩

/-! ## The whole run -/

/-- The run as far as nothing stops it. -/
theorem apply_eq (granted : (n : Int) ≤ s.limits.maxIterations) (moves : ∀ k < n, ¬s.Rests text k)
    (short : ∀ k < n, ¬s.Outgrows text (k + 1)) :
    s.apply text = s.passes (s.limits.maxLength text.length) (s.limits.maxIterations.toNat - n) n
      (s.after text n) := by
  have split : s.limits.maxIterations.toNat = n + (s.limits.maxIterations.toNat - n) := by omega
  rw [apply, split, passes_add moves fun k hk => short_of_not_outgrows (moves k hk) (short k hk)]
  rw [Nat.zero_add, Nat.add_sub_cancel_left]

theorem Outcome.apply_eq {o : Except Error String} (h : s.Outcome text o) : s.apply text = o := by
  cases h with
  | @settled k rests granted short =>
    have moves : ∀ j < k, ¬s.Rests text j := fun j hj earlier =>
      Nat.not_lt.mpr (rests.2 earlier) hj
    rw [Substitution.apply_eq (Int.le_of_lt granted) moves fun j hj out =>
      Int.not_lt.mpr (short (j + 1) (Nat.succ_pos j) hj) out.2.2]
    obtain ⟨left, hleft⟩ : ∃ left, s.limits.maxIterations.toNat - k = left + 1 :=
      ⟨s.limits.maxIterations.toNat - k - 1, by omega⟩
    have still : s.applyOnce (s.after text k) = s.after text k := by
      rw [← after_succ]
      exact rests.1
    rw [hleft, passes, still, if_pos rfl]
  | @outgrown j first =>
    obtain ⟨⟨granted, positive, moved, long⟩, least⟩ := first
    obtain ⟨i, rfl⟩ : ∃ i, j = i + 1 := ⟨j - 1, by omega⟩
    have short : ∀ k < i, ¬s.Outgrows text (k + 1) := fun k hk out =>
      absurd (least ⟨by omega, out⟩) (by omega)
    -- once at rest, the text would stay as it is, and pass `i + 1` changes it
    have moves : ∀ k < i, ¬s.Rests text k := by
      intro k hk rests
      obtain ⟨d, rfl⟩ := Nat.exists_eq_add_of_le (Nat.le_of_lt hk)
      exact moved ((rests.after_add (d + 1)).trans (rests.after_add d).symm)
    rw [Substitution.apply_eq (by omega) moves short]
    obtain ⟨left, hleft⟩ : ∃ left, s.limits.maxIterations.toNat - i = left + 1 :=
      ⟨s.limits.maxIterations.toNat - i - 1, by omega⟩
    rw [Nat.add_sub_cancel] at moved
    rw [after_succ] at moved long
    rw [hleft, passes]
    exact (if_neg moved).trans (if_pos long)
  | spent moves short =>
    by_cases none_granted : s.limits.maxIterations ≤ 0
    · rw [apply, Int.toNat_of_nonpos none_granted, passes]
    · have count : (s.limits.maxIterations.toNat : Int) = s.limits.maxIterations := by omega
      rw [Substitution.apply_eq (Int.le_of_eq count) (fun k hk => moves k (by omega))
        fun k hk => short (k + 1) (by omega), Nat.sub_self, passes]

/-- Every run comes to something. -/
theorem exists_outcome (s : Substitution) (text : String) : ∃ o, s.Outcome text o := by
  by_cases long : ∃ j : Nat, (j : Int) ≤ s.limits.maxIterations ∧ s.Outgrows text j
  · classical
    exact ⟨_, .outgrown ⟨Nat.find_spec long, fun _ hj => Nat.find_min' long hj⟩⟩
  push Not at long
  by_cases still : ∃ k : Nat, (k : Int) < s.limits.maxIterations ∧ s.Rests text k
  · classical
    have rests : ∃ k, s.Rests text k := still.imp fun _ h => h.2
    obtain ⟨k, granted, rest⟩ := still
    have least : Nat.find rests ≤ k := Nat.find_min' rests rest
    refine ⟨_, .settled (k := Nat.find rests)
      ⟨Nat.find_spec rests, fun _ hj => Nat.find_min' rests hj⟩ (by omega) ?_⟩
    intro j positive hj
    obtain ⟨i, rfl⟩ : ∃ i, j = i + 1 := ⟨j - 1, by omega⟩
    exact short_of_not_outgrows (Nat.find_min rests hj) (long _ (by omega))
  · push Not at still
    exact ⟨_, .spent still long⟩

theorem apply_eq_iff {o : Except Error String} : s.apply text = o ↔ s.Outcome text o := by
  constructor
  · rintro rfl
    obtain ⟨o, h⟩ := s.exists_outcome text
    rwa [h.apply_eq]
  · exact Outcome.apply_eq

/-- What a run returns is at rest. -/
theorem applyOnce_of_apply (h : s.apply text = .ok r) : s.applyOnce r = r := by
  cases apply_eq_iff.mp h with
  | settled rests =>
    rw [← after_succ]
    exact rests.1

/-- A text that a run returns is the first one, or one within the bound. -/
theorem length_of_apply (h : s.apply text = .ok r) :
    (r.length : Int) ≤ max (text.length : Int) (s.limits.maxLength text.length) := by
  cases apply_eq_iff.mp h with
  | @settled k rests granted short =>
    cases k with
    | zero => exact Int.le_max_left _ _
    | succ k => exact Int.le_trans (short _ (Nat.succ_pos k) le_rfl) (Int.le_max_right _ _)

/-- A run that returns was granted a pass. -/
theorem granted_of_apply (h : s.apply text = .ok r) : 0 < s.limits.maxIterations := by
  cases apply_eq_iff.mp h with
  | @settled k rests granted short => exact Int.lt_of_le_of_lt (Int.natCast_nonneg k) granted

/-- A run over a text at rest returns it, if one pass is granted. -/
theorem apply_of_rests (granted : 0 < s.limits.maxIterations) (h : s.applyOnce text = text) :
    s.apply text = .ok text :=
  apply_eq_iff.mpr <| .settled (k := 0) ⟨h, fun _ _ => Nat.zero_le _⟩ granted
    fun _ positive none => absurd (Nat.le_trans positive none) (by decide)

/-- What a run comes to is told by the texts of its passes and by its limits alone. A text that it
returns is at rest, is returned by a run over it, and is no longer than the first text or the
bound. -/
theorem apply_exact (s : Substitution) (text : String) :
    (∀ o, s.apply text = o ↔ s.Outcome text o) ∧
      ∀ r, s.apply text = .ok r → s.applyOnce r = r ∧ s.apply r = .ok r ∧
        (r.length : Int) ≤ max (text.length : Int) (s.limits.maxLength text.length) := by
  refine ⟨fun _ => apply_eq_iff, fun r h => ?_⟩
  have rest := applyOnce_of_apply h
  exact ⟨rest, apply_of_rests (granted_of_apply h) rest, length_of_apply h⟩

/-- A run that changes its text twice needs three passes. -/
theorem apply_exact_erosion :
    ∃ s, ofTexts "ab" "b" "ab > b" ⟨3, 1, 0⟩ = .ok s ∧ s.apply "aab" = .ok "b" ∧
      s.Outcome "aab" (.ok "b") ∧ s.applyOnce "b" = "b" ∧ s.apply "b" = .ok "b" ∧
      (("b".length : Nat) : Int) ≤
        max (("aab".length : Nat) : Int) (s.limits.maxLength "aab".length) := by
  have run : ((ofTexts "ab" "b" "ab > b" ⟨3, 1, 0⟩).toOption.map
      fun s => (s.apply "aab").toOption) = some (some "b") := by
    decide +kernel
  obtain ⟨s, compiled, returned⟩ := Option.map_eq_some_iff.mp run
  have returned := toOption_eq_some_iff.mp returned
  obtain ⟨comes, rests⟩ := s.apply_exact "aab"
  exact ⟨s, toOption_eq_some_iff.mp compiled, returned, (comes _).mp returned, rests _ returned⟩

end Neogrammar.Substitution
