import Mathlib.Data.List.Forall2
import Mathlib.Logic.Basic
import Mathlib.Tactic.SplitIfs

/-!
# Outcomes

How a computation that may fail came to its outcome: a sequence returns exactly when its parts do,
and fails with the error of the first part that does not.
-/
namespace Neogrammar

variable {ε α β : Type}

@[simp] theorem ok_bind (a : α) (f : α → Except ε β) : (Except.ok a >>= f) = f a := rfl

theorem pure_eq_ok (a : α) : (pure a : Except ε α) = .ok a := rfl

theorem bind_eq_ok_iff {x : Except ε α} {f : α → Except ε β} {b : β} :
    x >>= f = .ok b ↔ ∃ a, x = .ok a ∧ f a = .ok b := by
  cases x <;> simp [bind, Except.bind]

/-- A sequence returns what another one does if its second part does where that of the other
does. -/
theorem bind_eq_ok_mono {x : Except ε α} {f f' : α → Except ε β} {b : β} (h : x >>= f = .ok b)
    (mono : ∀ a, f a = .ok b → f' a = .ok b) : x >>= f' = .ok b := by
  obtain ⟨a, ha, h⟩ := bind_eq_ok_iff.mp h
  exact bind_eq_ok_iff.mpr ⟨a, ha, mono a h⟩

theorem bind_eq_error_iff {x : Except ε α} {f : α → Except ε β} {e : ε} :
    x >>= f = .error e ↔ x = .error e ∨ ∃ a, x = .ok a ∧ f a = .error e := by
  cases x <;> simp [bind, Except.bind]

/-- Sequences with the same first part are the same if their second parts are on what it returns. -/
theorem bind_congr_ok {x : Except ε α} {f g : α → Except ε β} (h : ∀ a, x = .ok a → f a = g a) :
    x >>= f = x >>= g := by
  cases x with
  | error e => rfl
  | ok a => exact h a rfl

theorem mapM_congr {f g : α → Except ε β} {as : List α} (h : ∀ a ∈ as, f a = g a) :
    as.mapM f = as.mapM g := by
  induction as with
  | nil => rfl
  | cons a as ih =>
    rw [List.forall_mem_cons] at h
    rw [List.mapM_cons, List.mapM_cons, h.1, ih h.2]

theorem mapM_congr_forall₂ {f : α → Except ε β} {as bs : List α}
    (h : List.Forall₂ (fun a b => f a = f b) as bs) : as.mapM f = bs.mapM f := by
  induction h with
  | nil => rfl
  | cons here _ ih => rw [List.mapM_cons, List.mapM_cons, here, ih]

/-- A list of computations that all return gives the list of what they return. -/
theorem mapM_eq_ok {f : α → Except ε β} {g : α → β} {as : List α}
    (h : ∀ a ∈ as, f a = .ok (g a)) : as.mapM f = .ok (as.map g) := by
  induction as with
  | nil => rfl
  | cons a as ih =>
    have tail := ih fun b hb => h b (by simp [hb])
    rw [List.mapM_cons, h a (by simp), ok_bind, tail]
    rfl

/-- Computations that differ from others by a map of what they return. -/
theorem mapM_map_result {f g : α → Except ε β} {k : β → β}
    (h : ∀ a, g a = k <$> f a) (as : List α) : as.mapM g = List.map k <$> as.mapM f := by
  induction as with
  | nil => rfl
  | cons a as ih =>
    rw [List.mapM_cons, List.mapM_cons, h a, ih]
    cases f a with
    | error e => rfl
    | ok b => cases as.mapM f <;> rfl

/-- Computations that all return with a property give a list with that property. -/
theorem mapM_returns {f : α → Except ε β} {P : α → β → Prop} {as : List α}
    (h : ∀ a ∈ as, ∃ b, f a = .ok b ∧ P a b) :
    ∃ bs, as.mapM f = .ok bs ∧ bs.length = as.length
      ∧ ∀ (i : Nat) a b, as[i]? = some a → bs[i]? = some b → P a b := by
  induction as with
  | nil => exact ⟨[], rfl, rfl, by simp⟩
  | cons a as ih =>
    obtain ⟨b, hb, hp⟩ := h a (by simp)
    obtain ⟨bs, hbs, length, each⟩ := ih fun a ha => h a (by simp [ha])
    refine ⟨b :: bs, ?_, by simp [length], ?_⟩
    · rw [List.mapM_cons, hb, ok_bind, hbs]
      rfl
    · intro i x y hx hy
      cases i with
      | zero =>
        cases hx
        cases hy
        exact hp
      | succ i => exact each i x y (by simpa using hx) (by simpa using hy)

/-- A list of computations returns exactly the list of what each of them returns. -/
theorem mapM_eq_ok_iff {f : α → Except ε β} {as : List α} {bs : List β} :
    as.mapM f = .ok bs ↔ List.Forall₂ (fun a b => f a = .ok b) as bs := by
  induction as generalizing bs with
  | nil => cases bs <;> simp [pure_eq_ok]
  | cons a as ih =>
    rw [List.mapM_cons, bind_eq_ok_iff]
    constructor
    · rintro ⟨b, first, h⟩
      obtain ⟨more, rest, same⟩ := bind_eq_ok_iff.mp h
      cases same
      exact .cons first (ih.mp rest)
    · rintro (_ | ⟨first, rest⟩)
      exact ⟨_, first, bind_eq_ok_iff.mpr ⟨_, ih.mpr rest, rfl⟩⟩

/-- Each result of a list of computations is that of the one at its place. -/
theorem of_mapM_eq_ok {f : α → Except ε β} {as : List α} {bs : List β} (h : as.mapM f = .ok bs)
    {i : Nat} {b : β} (hb : bs[i]? = some b) : ∃ a, as[i]? = some a ∧ f a = .ok b := by
  induction mapM_eq_ok_iff.mp h generalizing i with
  | nil => cases hb
  | @cons a _ _ _ first rest ih =>
    cases i with
    | zero =>
      cases hb
      exact ⟨a, rfl, first⟩
    | succ i =>
      obtain ⟨a', ha, hfa⟩ := ih (mapM_eq_ok_iff.mpr rest) (by simpa using hb)
      exact ⟨a', by simpa using ha, hfa⟩

/-- What holds of every result of some computations holds of all that a list of them returns. -/
theorem mapM_all {f : α → Except ε β} {P : β → Prop} {as : List α} {bs : List β}
    (h : as.mapM f = .ok bs) (each : ∀ a b, f a = .ok b → P b) : ∀ b ∈ bs, P b := by
  intro b hb
  obtain ⟨i, hi⟩ := List.mem_iff_getElem?.mp hb
  obtain ⟨a, -, ha⟩ := of_mapM_eq_ok h hi
  exact each a b ha

/-- Where a list of computations returns, each of them does. -/
theorem mapM_mem {f : α → Except ε β} {as : List α} {bs : List β} (h : as.mapM f = .ok bs)
    {a : α} (ha : a ∈ as) : ∃ b ∈ bs, f a = .ok b := by
  induction mapM_eq_ok_iff.mp h with
  | nil => cases ha
  | @cons first b _ _ hb rest ih =>
    rcases List.mem_cons.mp ha with rfl | ha
    · exact ⟨b, List.mem_cons_self, hb⟩
    · obtain ⟨x, hx, hax⟩ := ih (mapM_eq_ok_iff.mpr rest) ha
      exact ⟨x, List.mem_cons_of_mem b hx, hax⟩

/-- A list of computations fails with the error of the first one that does not return. -/
theorem mapM_eq_error_iff {f : α → Except ε β} {as : List α} {e : ε} :
    as.mapM f = .error e ↔ ∃ (i : Nat) (a : α), as[i]? = some a ∧ f a = .error e
      ∧ ∀ j < i, ∀ b, as[j]? = some b → ∃ c, f b = .ok c := by
  induction as with
  | nil => simp [pure_eq_ok]
  | cons a as ih =>
    rw [List.mapM_cons, bind_eq_error_iff]
    constructor
    · rintro (here | ⟨c, returns, later⟩)
      · exact ⟨0, a, rfl, here, by simp⟩
      · rcases bind_eq_error_iff.mp later with later | ⟨cs, -, never⟩
        · obtain ⟨i, b, hb, fails, before⟩ := ih.mp later
          refine ⟨i + 1, b, hb, fails, ?_⟩
          rintro (_ | j) hj x hx
          · cases hx
            exact ⟨c, returns⟩
          · exact before j (by omega) x (by simpa using hx)
        · cases never
    · rintro ⟨_ | i, b, hb, fails, before⟩
      · cases hb
        exact .inl fails
      · obtain ⟨c, returns⟩ := before 0 (by omega) a rfl
        have later := ih.mpr ⟨i, b, by simpa using hb, fails, fun j hj x hx =>
          before (j + 1) (by omega) x (by simpa using hx)⟩
        exact .inr ⟨c, returns, bind_eq_error_iff.mpr (.inl later)⟩

/-- A list of computations fails with the error of one of them. -/
theorem of_mapM_eq_error {f : α → Except ε β} {as : List α} {e : ε} (h : as.mapM f = .error e) :
    ∃ a ∈ as, f a = .error e := by
  obtain ⟨i, a, ha, fails, -⟩ := mapM_eq_error_iff.mp h
  exact ⟨a, List.mem_of_getElem? ha, fails⟩

theorem toOption_eq_some_iff {x : Except ε α} {a : α} : x.toOption = some a ↔ x = .ok a := by
  cases x <;> simp [Except.toOption]

theorem map_eq_ok_iff {x : Except ε α} {f : α → β} {b : β} :
    x.map f = .ok b ↔ ∃ a, x = .ok a ∧ f a = b := by
  cases x <;> simp [Except.map]

theorem map_eq_error_iff {x : Except ε α} {f : α → β} {e : ε} :
    x.map f = .error e ↔ x = .error e := by
  cases x <;> simp [Except.map]

/-! ## Kinds of failure -/

/-- Whatever a computation fails with is of a kind. -/
def FailsOnly (P : ε → Prop) (x : Except ε α) : Prop := ∀ e, x = .error e → P e

namespace FailsOnly

variable {P Q : ε → Prop} {x : Except ε α}

instance [DecidablePred P] : Decidable (FailsOnly P x) :=
  match x with
  | .ok _ => .isTrue fun _ h => nomatch h
  | .error e => decidable_of_iff (P e) ⟨fun h _ he => Except.error.inj he ▸ h, fun h => h e rfl⟩

theorem ok (a : α) : FailsOnly P (.ok a) := by
  rintro e ⟨⟩

theorem of_eq_ok {a : α} (h : x = .ok a) : FailsOnly P x := h ▸ ok a

theorem error {e : ε} (h : P e) : FailsOnly P (.error e : Except ε α) := by
  rintro e ⟨⟩
  exact h

theorem mono (hx : FailsOnly P x) (h : ∀ e, P e → Q e) : FailsOnly Q x := fun e he => h e (hx e he)

theorem bind {f : α → Except ε β} (hx : FailsOnly P x)
    (hf : ∀ a, x = .ok a → FailsOnly P (f a)) : FailsOnly P (x >>= f) := by
  intro e he
  rcases bind_eq_error_iff.mp he with he | ⟨a, ha, he⟩
  · exact hx e he
  · exact hf a ha e he

theorem ite {p : Prop} [Decidable p] {y : Except ε α} (hx : p → FailsOnly P x)
    (hy : ¬p → FailsOnly P y) : FailsOnly P (if p then x else y) := by
  split_ifs with h
  · exact hx h
  · exact hy h

theorem map {f : α → β} (hx : FailsOnly P x) : FailsOnly P (x.map f) :=
  fun e he => hx e (map_eq_error_iff.mp he)

theorem mapM {f : β → Except ε α} {bs : List β} (h : ∀ b ∈ bs, FailsOnly P (f b)) :
    FailsOnly P (bs.mapM f) := by
  intro e he
  obtain ⟨b, hb, he⟩ := of_mapM_eq_error he
  exact h b hb e he

end FailsOnly

/-! ## Results and failures together -/

/-- A computation returns something with a property, or fails with something of a kind. -/
def Meets (R : α → Prop) (P : ε → Prop) : Except ε α → Prop
  | .ok a => R a
  | .error e => P e

namespace Meets

variable {R R' : α → Prop} {S : β → Prop} {P Q : ε → Prop} {x : Except ε α}

theorem of_eq_ok {a : α} (hx : Meets R P x) (h : x = .ok a) : R a := by
  rw [h] at hx
  exact hx

theorem failsOnly (hx : Meets R P x) : FailsOnly P x := by
  intro e he
  rw [he] at hx
  exact hx

theorem of_failsOnly (hx : FailsOnly P x) (h : ∀ a, x = .ok a → R a) : Meets R P x := by
  cases x with
  | ok a => exact h a rfl
  | error e => exact hx e rfl

theorem mono (hx : Meets R P x) (hr : ∀ a, R a → R' a) (hp : ∀ e, P e → Q e) : Meets R' Q x := by
  cases x with
  | ok a => exact hr a hx
  | error e => exact hp e hx

theorem bind {f : α → Except ε β} (hx : Meets R P x) (hf : ∀ a, R a → Meets S P (f a)) :
    Meets S P (x >>= f) := by
  cases x with
  | ok a => exact hf a hx
  | error e => exact hx

theorem ite {p : Prop} [Decidable p] {y : Except ε α} (hx : p → Meets R P x)
    (hy : ¬p → Meets R P y) : Meets R P (if p then x else y) := by
  split_ifs with h
  · exact hx h
  · exact hy h

end Meets

end Neogrammar
