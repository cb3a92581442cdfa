import Neogrammar.Project.Session

/-!
# Blocks of edits

An edit tree holds edits, blocks and guards. Within an open block it does what it would do without
any blocks. An outermost block that is left by an error restores the project, whatever was caught
within it; one that is closed keeps every edit; after either the session has no open block and holds
no snapshot.
-/
namespace Neogrammar

/-- What is done in a session, with errors of type `ε`. -/
inductive EditTree (ε : Type) where
  /-- A change of the project. It may fail, with part of it done. -/
  | edit (f : Config → Project → Project × Except ε Unit)
  /-- One tree, and then one that may depend on the project by then. -/
  | andThen (first : EditTree ε) (next : Project → EditTree ε)
  | block (body : EditTree ε)
  /-- Some errors are caught and handled, all others are passed on. -/
  | guarded (body : EditTree ε) (catches : ε → Bool) (handler : ε → EditTree ε)

namespace EditTree

variable {ε : Type}

/-- Follow a tree in a session. The result is the session after it and the error that leaves it. -/
def perform : EditTree ε → Session → Session × Except ε Unit
  | edit f, s =>
    let (p, outcome) := f s.config s.project
    (s.withProject p, outcome)
  | andThen first next, s =>
    match first.perform s with
    | (s, .ok ()) => (next s.project).perform s
    | (s, .error e) => (s, .error e)
  | block body, s =>
    match body.perform s.openBlock with
    | (s, .ok ()) => (s.closeBlock, .ok ())
    | (s, .error e) => (s.abortBlock, .error e)
  | guarded body catches handler, s =>
    match body.perform s with
    | (s, .ok ()) => (s, .ok ())
    | (s, .error e) => if catches e then (handler e).perform s else (s, .error e)

/-- The edits of a tree without its blocks. -/
def unblocked : EditTree ε → Config → Project → Project × Except ε Unit
  | edit f, c, p => f c p
  | andThen first next, c, p =>
    match first.unblocked c p with
    | (p, .ok ()) => (next p).unblocked c p
    | (p, .error e) => (p, .error e)
  | block body, c, p => body.unblocked c p
  | guarded body catches handler, c, p =>
    match body.unblocked c p with
    | (p, .ok ()) => (p, .ok ())
    | (p, .error e) => if catches e then (handler e).unblocked c p else (p, .error e)

end EditTree

namespace Session

variable {s : Session}

@[simp] theorem withProject_project (s : Session) : s.withProject s.project = s := rfl

@[simp] theorem withProject_withProject (s : Session) (p q : Project) :
    (s.withProject p).withProject q = s.withProject q := rfl

/-- A block within an open one, closed again, leaves no mark besides its edits. -/
theorem closeBlock_inner (hs : 0 < s.depth) (p : Project) :
    (s.openBlock.withProject p).closeBlock = s.withProject p := by
  have inner : s.depth ≠ 0 := Nat.pos_iff_ne_zero.mp hs
  simp [openBlock, closeBlock, withProject, inner]

/-- Nor does one that is left by an error: only the outermost block restores. -/
theorem abortBlock_inner (hs : 0 < s.depth) (p : Project) :
    (s.openBlock.withProject p).abortBlock = s.withProject p := by
  have inner : s.depth ≠ 0 := Nat.pos_iff_ne_zero.mp hs
  have deeper : s.depth + 1 ≠ 1 := by omega
  unfold abortBlock
  split
  · next depth _ => simp [openBlock, withProject, inner] at depth
  · simp [openBlock, withProject, inner]

theorem closeBlock_outermost (hs : s.depth = 0) (p : Project) :
    (s.openBlock.withProject p).closeBlock = ⟨p, s.config, 0, none⟩ := by
  simp [openBlock, closeBlock, withProject, hs]

theorem abortBlock_outermost (hs : s.depth = 0) (p : Project) :
    (s.openBlock.withProject p).abortBlock = ⟨s.project, s.config, 0, none⟩ := by
  simp [openBlock, abortBlock, withProject, hs]

end Session

namespace EditTree

variable {ε : Type} {s : Session}

/-- Within an open block, a tree does what its edits do without any blocks. -/
theorem perform_inside (tree : EditTree ε) (hs : 0 < s.depth) :
    tree.perform s = (s.withProject (tree.unblocked s.config s.project).1,
      (tree.unblocked s.config s.project).2) := by
  induction tree generalizing s with
  | edit f => rfl
  | andThen first next first_ih next_ih =>
    rw [perform, unblocked, first_ih hs]
    cases first.unblocked s.config s.project with
    | mk p outcome =>
      cases outcome with
      | error e => rfl
      | ok => exact next_ih p (s := s.withProject p) hs
  | block body ih =>
    have deeper : 0 < s.openBlock.depth := by
      unfold Session.openBlock
      split <;> exact Nat.succ_pos _
    rw [perform, unblocked, ih deeper, Session.config_openBlock, Session.project_openBlock]
    cases body.unblocked s.config s.project with
    | mk p outcome =>
      cases outcome with
      | error e => exact congrArg (·, _) (Session.abortBlock_inner hs p)
      | ok => exact congrArg (·, _) (Session.closeBlock_inner hs p)
  | guarded body catches handler body_ih handler_ih =>
    rw [perform, unblocked, body_ih hs]
    cases body.unblocked s.config s.project with
    | mk p outcome =>
      cases outcome with
      | ok => rfl
      | error e =>
        dsimp only
        split
        · exact handler_ih e (s := s.withProject p) hs
        · rfl

/-- An outermost block is kept as a whole or undone as a whole. -/
theorem perform_outermost (body : EditTree ε) (hs : s.depth = 0) :
    (block body).perform s = match body.unblocked s.config s.project with
      | (p, .ok ()) => (⟨p, s.config, 0, none⟩, .ok ())
      | (_, .error e) => (⟨s.project, s.config, 0, none⟩, .error e) := by
  have opened : 0 < s.openBlock.depth := by
    simp [Session.openBlock, hs]
  rw [perform, perform_inside body opened, Session.config_openBlock, Session.project_openBlock]
  cases body.unblocked s.config s.project with
  | mk p outcome =>
    cases outcome with
    | error e => exact congrArg (·, _) (Session.abortBlock_outermost hs p)
    | ok => exact congrArg (·, _) (Session.closeBlock_outermost hs p)

end EditTree

namespace Session

variable {ε : Type} {s : Session}

/-- A block that is opened in a session ends as one edit. -/
structure Settles (s : Session) (body : EditTree ε) : Prop where
  /-- It ends as its edits end. -/
  outcome : ((EditTree.block body).perform s).2 = (body.unblocked s.config s.project).2
  /-- An error that leaves it restores the project. -/
  undone : ∀ e, ((EditTree.block body).perform s).2 = .error e →
    ((EditTree.block body).perform s).1.project = s.project
  /-- Otherwise all edits are kept, those of inner blocks whose error was caught as well. -/
  kept : ((EditTree.block body).perform s).2 = .ok () →
    ((EditTree.block body).perform s).1.project = (body.unblocked s.config s.project).1
  config : ((EditTree.block body).perform s).1.config = s.config
  depth : ((EditTree.block body).perform s).1.depth = 0
  snapshot : ((EditTree.block body).perform s).1.snapshot = none

theorem settles_of_depth (hs : s.depth = 0) (body : EditTree ε) : s.Settles body := by
  have outermost := EditTree.perform_outermost body hs
  cases h : body.unblocked s.config s.project with
  | mk p result =>
    rw [h] at outermost
    cases result with
    | error e =>
      constructor <;> simp [outermost, h]
    | ok =>
      constructor <;> simp [outermost, h]

/-- Where no block is open, a block is undone as a whole if an error leaves it and kept as a whole
otherwise; then no block is open and no snapshot is held, and the next block ends the same way. -/
theorem block_settles (hs : s.depth = 0) (body next : EditTree ε) :
    s.Settles body ∧ ((EditTree.block body).perform s).1.Settles next := by
  have first := settles_of_depth hs body
  exact ⟨first, settles_of_depth first.depth next⟩

/-- A new part of speech, and then an error of an inner block, which is caught. -/
def caught : EditTree Error :=
  .andThen (.edit fun _ p => ((p.addPos "noun" "n").2, .ok ())) fun _ =>
    .guarded
      (.block (.andThen (.edit fun _ p => ((p.addPos "verb" "v").2, .ok ())) fun p =>
        .edit fun _ q => (q, .error (.outOfRange (.nat p.languages.size) p.languages.size))))
      (fun _ => true) (fun _ => .edit fun _ p => (p, .ok ()))

/-- A new language, and then an error. -/
def uncaught : EditTree Error :=
  .andThen (.edit fun _ p => ((p.addLanguage "Ayi").2, .ok ())) fun _ =>
    .edit fun _ p => (p, .error (.vacant (.int 0)))

theorem block_settles_caught :
    (ofProject .empty .default).depth = 0 ∧
      (ofProject .empty .default).Settles caught ∧
      ((EditTree.block caught).perform (ofProject .empty .default)).1.Settles uncaught ∧
      ((EditTree.block caught).perform
        (ofProject .empty .default)).1.project.partsOfSpeech.size = 2 := by
  obtain ⟨first, next⟩ := block_settles (s := ofProject .empty .default) rfl caught uncaught
  refine ⟨rfl, first, next, ?_⟩
  rw [first.kept (first.outcome.trans rfl)]
  rfl

end Session
end Neogrammar
