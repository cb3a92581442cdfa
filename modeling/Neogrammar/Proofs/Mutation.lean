import Neogrammar.Slots
import Neogrammar.Proofs.Outcome

/-!
# Changes in place

A change in place keeps what it wrote before it failed. One that only looks until nothing more can
fail, and only then writes, settles: it comes to the same as an operation that is all or nothing.
-/
namespace Neogrammar

/-- A change in place of a state. A failure keeps the state that it happened in. -/
abbrev Mutation (σ : Type) : Type → Type := ExceptT Error (StateM σ)

namespace Mutation

variable {σ τ α β : Type}

/-- The state that a change leaves behind, and its outcome. -/
def after (m : Mutation σ α) (s : σ) : σ × Except Error α :=
  let (outcome, s) := StateT.run (ExceptT.run m) s
  (s, outcome)

/-- Compute something from the state. -/
def look (f : σ → Except Error α) : Mutation σ α := do ofExcept (f (← get))

/-- Change a part of the state, which may not be there. -/
def through (part : σ → Except Error τ) (put : σ → τ → σ) (m : Mutation τ α) : Mutation σ α := do
  let t ← look part
  let (t, outcome) := m.after t
  modify fun s => put s t
  ofExcept outcome

/-- Change a part of the state that is always there. -/
def within (part : σ → τ) (put : σ → τ → σ) (m : Mutation τ α) : Mutation σ α :=
  through (fun s => .ok (part s)) put m

@[simp] theorem after_pure (a : α) (s : σ) : (pure a : Mutation σ α).after s = (s, .ok a) := rfl

@[simp] theorem after_throw (e : Error) (s : σ) :
    (throw e : Mutation σ α).after s = (s, .error e) := rfl

@[simp] theorem after_get (s : σ) : (get : Mutation σ σ).after s = (s, .ok s) := rfl

@[simp] theorem after_modify (f : σ → σ) (s : σ) :
    (modify f : Mutation σ PUnit).after s = (f s, .ok ()) := rfl

theorem after_bind (m : Mutation σ α) (f : α → Mutation σ β) (s : σ) :
    (m >>= f).after s =
      match m.after s with
      | (s, .ok a) => (f a).after s
      | (s, .error e) => (s, .error e) := by
  unfold after
  rw [ExceptT.run_bind, StateT.run_bind]
  rcases StateT.run (ExceptT.run m) s with ⟨_ | _, _⟩ <;> rfl

@[simp] theorem after_map (m : Mutation σ α) (f : α → β) (s : σ) :
    (f <$> m).after s = ((m.after s).1, (m.after s).2.map f) := by
  rw [← bind_pure_comp, after_bind]
  rcases m.after s with ⟨_, _ | _⟩ <;> rfl

@[simp] theorem after_ofExcept (x : Except Error α) (s : σ) :
    (ofExcept x : Mutation σ α).after s = (s, x) := by
  cases x <;> rfl

@[simp] theorem after_look (f : σ → Except Error α) (s : σ) :
    (look f).after s = (s, f s) := by
  simp [look, after_bind]

@[simp] theorem after_through (part : σ → Except Error τ) (put : σ → τ → σ) (m : Mutation τ α)
    (s : σ) :
    (through part put m).after s =
      match part s with
      | .ok t => (put s (m.after t).1, (m.after t).2)
      | .error e => (s, .error e) := by
  rw [through, after_bind, after_look]
  cases part s with
  | error e => rfl
  | ok t => simp [after_bind]

@[simp] theorem after_within (part : σ → τ) (put : σ → τ → σ) (m : Mutation τ α) (s : σ) :
    (within part put m).after s = (put s (m.after (part s)).1, (m.after (part s)).2) := by
  rw [within, after_through]

/-! ## Settling -/

/-- What an operation that is all or nothing leaves behind. -/
def settle (s : σ) : Except Error (α × σ) → σ × Except Error α
  | .ok (a, s) => (s, .ok a)
  | .error e => (s, .error e)

/-- An operation with nothing to report. -/
def silent (f : σ → Except Error σ) (s : σ) : Except Error (Unit × σ) := do
  pure ((), ← f s)

/-- A change whose result is dropped. -/
def quiet (m : Mutation σ α) : Mutation σ Unit := do
  let _ ← m
  return

/-- The change does what `f` says where that returns. Where it fails, the change fails with the same
error and leaves the state as it was. -/
def Settles (m : Mutation σ α) (f : σ → Except Error (α × σ)) : Prop :=
  ∀ s, m.after s = settle s (f s)

section

variable {m : Mutation σ α} {f g : σ → Except Error (α × σ)}

theorem Settles.congr (h : m.Settles f) (hfg : ∀ s, f s = g s) : m.Settles g :=
  fun s => (h s).trans (congrArg (settle s) (hfg s))

theorem settles_throw (e : Error) : (throw e : Mutation σ α).Settles fun _ => .error e :=
  fun _ => rfl

/-- A write that nothing comes after. -/
theorem settles_write (put : σ → σ) (a : α) :
    (do modify put; pure a : Mutation σ α).Settles fun s => .ok (a, put s) := fun _ => rfl

theorem settles_modify (put : σ → σ) :
    (modify put : Mutation σ Unit).Settles fun s => .ok ((), put s) := fun _ => rfl

/-- What a change reports may be computed from what another one returns. -/
theorem Settles.report (h : m.Settles f) (g : α → β) :
    (m >>= fun a => pure (g a)).Settles fun s =>
      f s >>= fun result => pure (g result.1, result.2) := by
  intro s
  rw [after_bind, h s]
  dsimp only
  cases f s <;> rfl

theorem Settles.quiet (h : m.Settles f) : m.quiet.Settles (silent fun s => do pure (← f s).2) := by
  refine (h.report fun _ => ()).congr fun s => ?_
  simp only [silent, bind_assoc, pure_bind]

/-- A look may come before anything that settles. -/
theorem settles_look {g : σ → Except Error β} {k : β → Mutation σ α}
    {f : β → σ → Except Error (α × σ)} (h : ∀ b, (k b).Settles (f b)) :
    (look g >>= k).Settles fun s => g s >>= fun b => f b s := by
  intro s
  rw [after_bind, after_look]
  dsimp only
  cases g s with
  | error e => rfl
  | ok b => exact h b s

theorem settles_look_silent {g : σ → Except Error β} {k : β → Mutation σ Unit}
    {f : β → σ → Except Error σ} (h : ∀ b, (k b).Settles (silent (f b))) :
    (look g >>= k).Settles (silent fun s => g s >>= fun b => f b s) := by
  refine (settles_look h).congr fun s => ?_
  simp only [silent, bind_assoc]

/-- So may a computation that does not depend on the state. -/
theorem settles_given {x : Except Error β} {k : β → Mutation σ α}
    {f : β → σ → Except Error (α × σ)} (h : ∀ b, (k b).Settles (f b)) :
    (ofExcept x >>= k).Settles fun s => x >>= fun b => f b s := by
  intro s
  rw [after_bind, after_ofExcept]
  cases x with
  | error e => rfl
  | ok b => exact h b s

/-- A change of a part settles if what was there may be put back. -/
theorem settles_through {part : σ → Except Error τ} {put : σ → τ → σ} {m : Mutation τ α}
    {f : τ → Except Error (α × τ)} (h : m.Settles f)
    (back : ∀ s t, part s = .ok t → put s t = s) :
    (through part put m).Settles fun s =>
      part s >>= fun t => f t >>= fun result => pure (result.1, put s result.2) := by
  intro s
  rw [after_through]
  dsimp only
  cases hp : part s with
  | error e => rfl
  | ok t =>
    simp only [h t, ok_bind]
    cases f t with
    | error e => exact congrArg (·, _) (back s t hp)
    | ok result => rfl

theorem settles_within {part : σ → τ} {put : σ → τ → σ} {m : Mutation τ α}
    {f : τ → Except Error (α × τ)} (h : m.Settles f) (back : ∀ s, put s (part s) = s) :
    (within part put m).Settles fun s =>
      f (part s) >>= fun result => pure (result.1, put s result.2) := by
  refine settles_through h fun s t ht => ?_
  cases ht
  exact back s

end

end Mutation

/-! ## Slots and rule lists -/

namespace Slots

variable {α : Type}

def appendInPlace (a : α) : Mutation (Slots α) Nat := do
  modify (·.push (some a))
  return (← getThe (Slots α)).size - 1

/-- Append a cell, which may be empty. -/
def pushInPlace (cell : Option α) : Mutation (Slots α) Nat := do
  modify (·.push cell)
  return (← getThe (Slots α)).size - 1

def setInPlace (index : Datum) (cell : Option α) : Mutation (Slots α) Unit := do
  let i ← .look fun s => locate index s.size
  modify (·.put i cell)

def removeInPlace (index : Datum) : Mutation (Slots α) (Option α) := do
  let i ← .look fun s => locate index s.size
  let old := (← getThe (Slots α)).find? i
  modify (·.put i none)
  return old

theorem settles_push (cell : Option α) :
    (pushInPlace cell).Settles fun s => .ok (s.size, s.push cell) := by
  intro s
  change (s.push cell, Except.ok ((s.push cell).size - 1)) = _
  rw [size_push]
  rfl

theorem settles_append (a : α) :
    (appendInPlace a).Settles fun s => .ok (s.size, s.push (some a)) := settles_push (some a)

theorem settles_set (index : Datum) (cell : Option α) :
    (setInPlace index cell).Settles (Mutation.silent (·.set index cell)) := by
  refine (Mutation.settles_look fun i => Mutation.settles_modify _).congr fun s => ?_
  simp only [Mutation.silent, set, bind_assoc, pure_bind]
  rfl

theorem settles_remove (index : Datum) :
    (removeInPlace (α := α) index).Settles (·.remove index) :=
  Mutation.settles_look fun _ _ => rfl

end Slots

namespace RuleList

variable {α : Type}

def appendInPlace (rule : α) : Mutation (List α) Nat := do
  modify (· ++ [rule])
  return (← get).length - 1

/-- The rule at a place that is known to be there. -/
def ruleAt (index : Datum) (i : Nat) (rules : List α) : Except Error α :=
  match rules[i]? with
  | some rule => .ok rule
  | none => .error (.outOfRange index rules.length)

def alterInPlace (index : Datum) (rule : α) : Mutation (List α) α := do
  let i ← .look fun rules => locate index rules.length
  let old ← .look (ruleAt index i)
  modify (·.set i rule)
  return old

def insertInPlace (index : Datum) (rule : α) : Mutation (List α) Unit := do
  let i ← .look fun rules => locateGap index rules.length
  modify (·.insertIdx i rule)

def removeInPlace (index : Datum) : Mutation (List α) α := do
  let i ← .look fun rules => locate index rules.length
  let old ← .look (ruleAt index i)
  modify (·.eraseIdx i)
  return old

theorem settles_append (rule : α) :
    (appendInPlace rule).Settles fun rules => .ok (rules.length, rules ++ [rule]) := by
  intro rules
  change (rules ++ [rule], Except.ok ((rules ++ [rule]).length - 1)) = _
  rw [List.length_append]
  rfl

theorem settles_alter (index : Datum) (rule : α) :
    (alterInPlace index rule).Settles fun rules => alter rules index rule := by
  refine Mutation.Settles.congr (Mutation.settles_look fun i => Mutation.settles_look fun old =>
    Mutation.settles_write _ old) fun rules => ?_
  unfold alter ruleAt
  congr 1
  funext i
  cases rules[i]? <;> rfl

theorem settles_insert (index : Datum) (rule : α) :
    (insertInPlace index rule).Settles (Mutation.silent fun rules => insert rules index rule) := by
  refine (Mutation.settles_look fun i => Mutation.settles_modify _).congr fun rules => ?_
  simp only [Mutation.silent, insert, bind_assoc, pure_bind]
  rfl

theorem settles_remove (index : Datum) :
    (removeInPlace (α := α) index).Settles fun rules => remove rules index := by
  refine Mutation.Settles.congr (Mutation.settles_look fun i => Mutation.settles_look fun old =>
    Mutation.settles_write _ old) fun rules => ?_
  unfold remove ruleAt
  congr 1
  funext i
  cases rules[i]? <;> rfl

end RuleList
end Neogrammar
