import Neogrammar.Command.Load
import Neogrammar.Proofs.Outcome

/-!
# What scripts come to

What a script comes to does not depend on what has been printed before it: it goes on with a value,
or it ends. A script decides a property of values if it goes on exactly where there is such a value,
and ends otherwise, never by the exit code of success.
-/
namespace Neogrammar.Script

variable {α β : Type} {x y : Script α} {f : α → Script β} {P P' : α → Prop} {Q : α → β → Prop}

/-- What a script comes to, whatever has been printed before. -/
def Gives (x : Script α) (r : Except Ending α) : Prop :=
  ∀ printed : String, ∃ output, (ExceptT.run x).run printed = (r, output)

theorem Gives.pure (a : α) : Gives (pure a) (.ok a) := fun printed => ⟨printed, rfl⟩

theorem Gives.write (s : String) : (Script.write s).Gives (.ok ()) := fun printed =>
  ⟨printed ++ s, rfl⟩

theorem Gives.throw (e : Ending) : Gives (α := α) (throw e) (.error e) := fun printed =>
  ⟨printed, rfl⟩

theorem Gives.bind {a : α} {r : Except Ending β} (hx : x.Gives (.ok a)) (hf : (f a).Gives r) :
    Gives (x >>= f) r := by
  intro printed
  obtain ⟨between, hb⟩ := hx printed
  obtain ⟨output, ho⟩ := hf between
  exact ⟨output, by rw [ExceptT.run_bind, StateT.run_bind, hb]; exact ho⟩

theorem Gives.bind_error {e : Ending} (hx : x.Gives (.error e)) : Gives (x >>= f) (.error e) := by
  intro printed
  obtain ⟨output, ho⟩ := hx printed
  exact ⟨output, by rw [ExceptT.run_bind, StateT.run_bind, ho]; rfl⟩

/-- A script goes on with the value that has a property, if there is one, and ends otherwise, but
not with exit code 0. -/
def Decides (x : Script α) (P : α → Prop) : Prop :=
  ∃ r, x.Gives r ∧ (∀ a, r = .ok a ↔ P a) ∧ r ≠ .error (.code 0)

namespace Decides

theorem congr (hx : x.Decides P) (h : ∀ a, P a ↔ P' a) : x.Decides P' := by
  obtain ⟨r, gives, exact, honest⟩ := hx
  exact ⟨r, gives, fun a => (exact a).trans (h a), honest⟩

theorem pure (a : α) : Decides (Pure.pure a) (· = a) :=
  ⟨.ok a, .pure a, fun b => by simp [eq_comm], by simp⟩

theorem done : Decides (Pure.pure ()) fun _ => True := (pure ()).congr fun _ => by simp

theorem write (s : String) : (Script.write s).Decides fun _ => True :=
  ⟨.ok (), .write s, fun _ => by simp, by simp⟩

theorem writeLine (s : String) : (Script.writeLine s).Decides fun _ => True := write _

theorem exit (n : Nat) (h : n ≠ 0) : (Script.exit n : Script α).Decides fun _ => False :=
  ⟨.error (.code n), .throw _, fun _ => by simp, by simpa using h⟩

theorem fail (cause : Failure) : (Script.fail cause : Script α).Decides fun _ => False :=
  ⟨.error (.failed cause), .throw _, fun _ => by simp, by simp⟩

theorem bind (hx : x.Decides P) (hf : ∀ a, P a → (f a).Decides (Q a)) :
    Decides (x >>= f) fun b => ∃ a, P a ∧ Q a b := by
  obtain ⟨r, gives, exact, honest⟩ := hx
  cases r with
  | error e =>
    refine ⟨.error e, gives.bind_error, fun b => ⟨fun h => (by cases h), ?_⟩, fun h => ?_⟩
    · rintro ⟨a, ha, -⟩
      cases (exact a).mpr ha
    · cases h
      exact honest rfl
  | ok a =>
    obtain ⟨r, gives', exact', honest'⟩ := hf a ((exact a).mp rfl)
    refine ⟨r, gives.bind gives', fun b => (exact' b).trans ⟨fun hb => ?_, ?_⟩, honest'⟩
    · exact ⟨a, (exact a).mp rfl, hb⟩
    · rintro ⟨other, ho, hb⟩
      cases (exact other).mpr ho
      exact hb

/-- Something that never ends, such as printing, decides nothing. -/
theorem after {x : Script Unit} {y : Script β} {R : β → Prop} (hx : x.Decides fun _ => True)
    (hy : y.Decides R) : Decides (do x; y) R :=
  (hx.bind fun _ _ => hy).congr fun _ => by simp

theorem edited (x : Except Error α) : (Script.edited x).Decides fun a => x = .ok a := by
  cases x with
  | ok a => exact (pure a).congr fun b => by simp [eq_comm]
  | error e => exact (fail _).congr fun _ => by simp

theorem forM {items : List α} {f : α → Script Unit} (h : ∀ a ∈ items, (f a).Decides fun _ => True) :
    (items.forM f).Decides fun _ => True := by
  induction items with
  | nil => exact done
  | cons a items ih =>
    change Decides (f a >>= fun _ => items.forM f) _
    exact (h a List.mem_cons_self).after (ih fun b hb => h b (List.mem_cons_of_mem _ hb))

theorem refuse (label message : String) :
    (Script.refuse label message : Script α).Decides fun _ => False :=
  (writeLine _).after (exit 1 (by decide))

end Decides

/-- A run of a script that decides how it ends does so by that value; where there is none, the files
are untouched and the exit code is not that of success. -/
theorem Decides.run {x : Script (Files × Ending)} {P : Files × Ending → Prop} (hx : x.Decides P)
    (before : Files) :
    (∀ out, P out → (x.run before).files = out.1 ∧ (x.run before).ending = out.2) ∧
      ((∃ out, P out) ∨ (x.run before).files = before ∧ (x.run before).ending ≠ .code 0) := by
  obtain ⟨r, gives, exact, honest⟩ := hx
  obtain ⟨output, ho⟩ := gives ""
  change ExceptT.run x "" = (r, output) at ho
  unfold Script.run
  rw [ho]
  constructor
  · intro out hp
    cases (exact out).mpr hp
    exact ⟨rfl, rfl⟩
  · cases r with
    | ok out => exact .inl ⟨out, (exact out).mp rfl⟩
    | error e => exact .inr ⟨rfl, fun same => honest (congrArg _ same)⟩

/-! ## Loading -/

/-- What a request file has to hold. -/
def RequestIn (files : Files) (path : String) (r : Request) : Prop :=
  ∃ text, files.read? path = some text ∧ Request.ofText text = .ok r

/-- The project that a command works on: a new one where that is asked for and nothing is there, or
else the one in the file. -/
def ProjectIn (files : Files) (path : String) (create : Bool) (p : Project) : Prop :=
  create = true ∧ files.has path = false ∧ p = .empty ∨ Project.load files path = .ok p

end Neogrammar.Script
