import Neogrammar.Project.Session
import Neogrammar.Proofs.Project.Changes

/-!
# Runs of moves

A move is a call, a recomputation of forms, or a step into or out of a block. What holds of every
language by its index, of new languages, and after each change that a move may make, holds
throughout a run: also where moves fail, and where blocks are undone.
-/
namespace Neogrammar

inductive Move where
  | call (call : Call)
  /-- Compute the forms of one language anew, or of all. -/
  | morphAll (lang : Option Datum)
  | openBlock
  | closeBlock
  /-- An error leaves the innermost block. -/
  | abortBlock

namespace Session

/-- What holds of the project under edit and of the one that the outermost block began with. -/
structure Holds (P : Nat → Language → Prop) (s : Session) : Prop where
  project : s.project.Holds P
  snapshot : ∀ p, s.snapshot = some p → p.Holds P

theorem project_abortBlock (s : Session) :
    s.abortBlock.project = s.project ∨ s.snapshot = some s.abortBlock.project := by
  unfold abortBlock
  split
  · exact .inr ‹_›
  · exact .inl rfl

@[simp] theorem config_closeBlock (s : Session) : s.closeBlock.config = s.config := by
  unfold closeBlock; split <;> rfl

@[simp] theorem config_abortBlock (s : Session) : s.abortBlock.config = s.config := by
  unfold abortBlock; split <;> rfl

theorem snapshot_openBlock {s : Session} {p : Project} (h : s.openBlock.snapshot = some p) :
    p = s.project ∨ s.snapshot = some p := by
  unfold openBlock at h
  split at h
  · exact .inl (Option.some.inj h).symm
  · exact .inr h

theorem snapshot_closeBlock {s : Session} {p : Project} (h : s.closeBlock.snapshot = some p) :
    s.snapshot = some p := by
  unfold closeBlock at h
  split at h
  · cases h
  · exact h

theorem snapshot_abortBlock {s : Session} {p : Project} (h : s.abortBlock.snapshot = some p) :
    s.snapshot = some p := by
  unfold abortBlock at h
  split at h
  · cases h
  · exact h

end Session

namespace Move

/-- The session after a move, and what the move comes to. -/
def make (s : Session) : Move → Session × Except Error Unit
  | call c =>
    let (p, outcome) := (c.perform s.config).after s.project
    (s.withProject p, outcome)
  | morphAll lang =>
    match lang.mapM s.project.indexOf with
    | .error e => (s, .error e)
    | .ok lang =>
      let (p, outcome) := s.project.morphAll s.config lang
      (s.withProject p, outcome.map fun _ => ())
  | openBlock => (s.openBlock, .ok ())
  | closeBlock => (s.closeBlock, .ok ())
  | abortBlock => (s.abortBlock, .ok ())

/-- A move is about a part of the language at an index. -/
def Touches : Move → Nat → Part → Prop
  | call c => c.Touches
  | morphAll _ => fun _ part => part = .words
  | openBlock | closeBlock | abortBlock => fun _ _ => False

/-- A move that is made changes a part of the language at an index: one that fails changes words at
most. -/
def Changes (m : Move) (s : Session) (i : Nat) (part : Part) : Prop :=
  m.Touches i part ∧ (part = .words ∨ (m.make s).2 = .ok ())

variable {s : Session} {m : Move}

theorem make_call (s : Session) (c : Call) :
    (call c).make s = (s.withProject (c.run s.config s.project).1, (c.run s.config s.project).2) := by
  rw [make, Call.after_perform]

theorem changes_call {c : Call} {i : Nat} {part : Part} :
    (call c).Changes s i part ↔
      c.Touches i part ∧ (part = .words ∨ (c.run s.config s.project).2 = .ok ()) := by
  rw [Changes, make_call]
  rfl

@[simp] theorem config_make (s : Session) (m : Move) : (m.make s).1.config = s.config := by
  cases m with
  | call c => rfl
  | morphAll lang =>
    rw [make]
    split <;> rfl
  | openBlock => exact s.config_openBlock
  | closeBlock => exact s.config_closeBlock
  | abortBlock => exact s.config_abortBlock

theorem snapshot_make {p : Project} (h : (m.make s).1.snapshot = some p) :
    p = s.project ∨ s.snapshot = some p := by
  cases m with
  | call c => exact .inr h
  | morphAll lang =>
    rw [make] at h
    split at h <;> exact .inr h
  | openBlock => exact Session.snapshot_openBlock h
  | closeBlock => exact .inr (Session.snapshot_closeBlock h)
  | abortBlock => exact .inr (Session.snapshot_abortBlock h)

/-- A move makes no change but to parts that it touches, or undoes the outermost block. -/
theorem change_make (s : Session) (m : Move) :
    Project.Change s.config.limits (m.Changes s) s.project (m.make s).1.project ∨
      m = .abortBlock ∧ s.snapshot = some (m.make s).1.project := by
  cases m with
  | call c =>
    left
    rw [make_call]
    exact (Call.change_run_returned s.config s.project c).mono fun _ _ => changes_call.mpr
  | morphAll lang =>
    left
    have touched : ∀ i, (morphAll lang).Changes s i .words := fun i => ⟨rfl, .inl rfl⟩
    rw [make]
    split
    · exact .refl _
    · exact Project.change_morphAll _ touched
  | openBlock => exact .inl (s.project_openBlock ▸ .refl _)
  | closeBlock => exact .inl (s.project_closeBlock ▸ .refl _)
  | abortBlock =>
    rcases s.project_abortBlock with same | undone
    · left
      rw [make, same]
      exact .refl _
    · exact .inr ⟨rfl, undone⟩

/-- A move keeps what new languages have and none of its changes takes away. -/
theorem holds_make {P : Nat → Language → Prop} (hs : s.Holds P) (named : ∀ i name, P i (.named name))
    (keeps : ∀ i part l n, m.Changes s i part → l.Change s.config.limits part n → P i l → P i n) :
    (m.make s).1.Holds P where
  project := by
    rcases m.change_make s with change | ⟨-, undone⟩
    · exact change.holds named keeps hs.project
    · exact hs.snapshot _ undone
  snapshot p hp := by
    rcases snapshot_make hp with rfl | old
    · exact hs.project
    · exact hs.snapshot p old

end Move

/-! ## Runs -/

namespace Session

/-- The session after moves in order. -/
def moved (s : Session) (moves : List Move) : Session := moves.foldl (fun s m => (m.make s).1) s

/-- The moves of a run that return. -/
def returned (s : Session) : List Move → List Move
  | [] => []
  | m :: rest =>
    match m.make s with
    | (s, .ok _) => m :: s.returned rest
    | (s, .error _) => s.returned rest

variable {s : Session} {m : Move} {moves : List Move} {P : Nat → Language → Prop}

@[simp] theorem moved_nil : s.moved [] = s := rfl

@[simp] theorem moved_cons : s.moved (m :: moves) = (m.make s).1.moved moves := rfl

theorem moved_append (s : Session) (before after : List Move) :
    s.moved (before ++ after) = (s.moved before).moved after :=
  List.foldl_append

@[simp] theorem config_moved (s : Session) (moves : List Move) : (s.moved moves).config = s.config := by
  induction moves generalizing s with
  | nil => rfl
  | cons m moves ih => rw [moved_cons, ih, Move.config_make]

theorem returned_cons_ok (h : (m.make s).2 = .ok ()) :
    s.returned (m :: moves) = m :: (m.make s).1.returned moves := by
  rw [returned]
  split <;> rename_i hm <;> rw [hm] at h ⊢
  · cases h

theorem returned_cons_error {e : Error} (h : (m.make s).2 = .error e) :
    s.returned (m :: moves) = (m.make s).1.returned moves := by
  rw [returned]
  split <;> rename_i hm <;> rw [hm] at h ⊢
  · cases h

theorem returned_sublist_cons : ((m.make s).1.returned moves).Sublist (s.returned (m :: moves)) := by
  cases hm : (m.make s).2 with
  | ok =>
    rw [returned_cons_ok hm]
    exact List.sublist_cons_self m _
  | error e => rw [returned_cons_error hm]

theorem returned_sublist (s : Session) (moves : List Move) : (s.returned moves).Sublist moves := by
  induction moves generalizing s with
  | nil => exact List.Sublist.slnil
  | cons m moves ih =>
    cases hm : (m.make s).2 with
    | ok =>
      rw [returned_cons_ok hm]
      exact (ih _).cons_cons m
    | error e =>
      rw [returned_cons_error hm]
      exact (ih _).cons m

/-- What changes of words keep, and the changes of those moves of a run that return, the run
keeps. -/
theorem Holds.moved (hs : s.Holds P) (named : ∀ i name, P i (.named name))
    (keeps : ∀ m i part l n, m.Touches i part → part = .words ∨ m ∈ s.returned moves →
      l.Change s.config.limits part n → P i l → P i n) : (s.moved moves).Holds P := by
  induction moves generalizing s with
  | nil => exact hs
  | cons m moves ih =>
    refine ih (m.holds_make hs named ?_) ?_
    · rintro i part l n ⟨touched, made⟩
      refine keeps m i part l n touched (made.imp_right fun returned => ?_)
      exact returned_cons_ok returned ▸ List.mem_cons_self
    · intro n i part l k touched made
      rw [Move.config_make]
      exact keeps n i part l k touched (made.imp_right returned_sublist_cons.mem)

/-- No move gives a slot up, so the project that undoing a block restores has no more of them. -/
theorem size_snapshot_moved (h : ∀ p, s.snapshot = some p → p.languages.size ≤ s.project.languages.size)
    (moves : List Move) : ∀ p, (s.moved moves).snapshot = some p →
      p.languages.size ≤ (s.moved moves).project.languages.size := by
  induction moves generalizing s with
  | nil => exact h
  | cons m moves ih =>
    refine ih fun p hp => ?_
    rcases m.change_make s with change | ⟨rfl, undone⟩
    · refine le_trans ?_ change.size_le
      rcases Move.snapshot_make hp with rfl | old
      · exact le_rfl
      · exact h p old
    · exact (Option.some.inj (undone.symm.trans (snapshot_abortBlock hp))) ▸ le_rfl

end Session
end Neogrammar
