import Mathlib.Logic.ExistsUnique
import Neogrammar.Proofs.Pattern.Rendering

/-!
# The matches in a text

The matches of a pattern in a text follow one another from left to right. Each starts as early as a
match may behind the one before it; where that one was empty, a match at the same place must not be
empty itself. A pattern has exactly one such sequence of matches in a text, and replacing is nothing
but putting something in the place of each of them.
-/
namespace Neogrammar.Pattern

/-- A match in a text: where it starts and stops, and the marks of its groups. -/
structure Occurrence where
  start : Nat
  stop : Nat
  marks : Marks

/-- The text of a group in a match; a group that took no part is empty. -/
def Occurrence.group (o : Occurrence) (text : Array Char) (n : Nat) : List Char :=
  groupText text o.start o.stop o.marks n

/-- The matches of a pattern from a position on; where `nonempty` is set, the one at that position
must not be empty. -/
inductive Compiled.Occurs (c : Compiled) (text : Array Char) :
    Nat → Bool → List Occurrence → Prop where
  | last {p : Nat} {nonempty : Bool}
      (absent : ∀ x, p ≤ x → x ≤ text.size → c.matchAt? text (nonempty && x == p) x = none) :
      Occurs c text p nonempty []
  | next {p : Nat} {nonempty : Bool} {o : Occurrence} {rest : List Occurrence}
      (onward : p ≤ o.start) (inside : o.start ≤ text.size)
      (skipped : ∀ x, p ≤ x → x < o.start → c.matchAt? text (nonempty && x == p) x = none)
      (found : c.matchAt? text (nonempty && o.start == p) o.start = some (o.stop, o.marks))
      (others : Occurs c text o.stop (o.stop == o.start) rest) :
      Occurs c text p nonempty (o :: rest)

/-- A text from a position on, in which each match makes way for what is put there. -/
def patched (text : Array Char) (put : Occurrence → List Char) : Nat → List Occurrence → List Char
  | p, [] => stretch text p text.size
  | p, o :: rest => stretch text p o.start ++ put o ++ patched text put o.stop rest

variable {c : Compiled} {text : Array Char} {p : Nat} {nonempty : Bool} {os : List Occurrence}

theorem stretch_self (text : Array Char) (p : Nat) : stretch text p p = [] := by
  simp [stretch]

theorem stretch_append {x q : Nat} (le : p ≤ x) (le' : x ≤ q) :
    stretch text p x ++ stretch text x q = stretch text p q := by
  simp only [stretch, ← Array.toList_append, Array.extract_append_extract, Nat.min_eq_left le,
    Nat.max_eq_right le']

theorem stretch_cons {x : Char} {q : Nat} (here : text[p]? = some x) (h : p < q) :
    stretch text p q = x :: stretch text (p + 1) q := by
  obtain ⟨inside, rfl⟩ := Array.getElem?_eq_some_iff.mp here
  obtain ⟨n, rfl⟩ : ∃ n, q = p + 1 + n := ⟨q - (p + 1), by omega⟩
  have split : text.toList.drop p = text[p] :: text.toList.drop (p + 1) := by
    rw [List.drop_eq_getElem_cons (by simpa using inside), Array.getElem_toList]
  have width : p + 1 + n - p = n + 1 := by omega
  simp only [stretch, Array.toList_extract, List.extract_eq_take_drop, split, width,
    Nat.add_sub_cancel_left, List.take_succ_cons]

namespace Compiled.Occurs

/-- At a later position an empty match is allowed. -/
theorem flag_later {x : Nat} (h : p < x) (nonempty : Bool) : (nonempty && x == p) = false := by
  rw [beq_false_of_ne (Nat.ne_of_gt h), Bool.and_false]

/-- A position without a match has the matches of the next one. -/
theorem skip (missed : c.matchAt? text nonempty p = none)
    (h : c.Occurs text (p + 1) false os) : c.Occurs text p nonempty os := by
  have missed_from (y : Nat)
      (later : ∀ x, p + 1 ≤ x → x < y → c.matchAt? text (false && x == p + 1) x = none) :
      ∀ x, p ≤ x → x < y → c.matchAt? text (nonempty && x == p) x = none := by
    intro x le lt
    rcases Nat.eq_or_lt_of_le le with rfl | less
    · rwa [beq_self_eq_true, Bool.and_true]
    · rw [flag_later less]
      exact later x less lt
  cases h with
  | last absent =>
    refine .last fun x le within => missed_from (text.size + 1) ?_ x le (by omega)
    exact fun x le lt => absent x le (by omega)
  | next onward within skipped found others =>
    refine .next (by omega) within (missed_from _ skipped) ?_ others
    rwa [flag_later onward]

/-- The matches from a position on are determined. -/
theorem unique {os' : List Occurrence} (h : c.Occurs text p nonempty os)
    (h' : c.Occurs text p nonempty os') : os = os' := by
  induction h generalizing os' with
  | last absent =>
    cases h' with
    | last => rfl
    | next onward within _ found _ =>
      rw [absent _ onward within] at found
      cases found
  | @next p nonempty o rest onward within skipped found others ih =>
    cases h' with
    | last absent =>
      rw [absent _ onward within] at found
      cases found
    | @next _ _ o' rest' onward' within' skipped' found' others' =>
      have same : o.start = o'.start := by
        rcases Nat.lt_trichotomy o.start o'.start with less | same | more
        · rw [skipped' _ onward less] at found
          cases found
        · exact same
        · rw [skipped _ onward' more] at found'
          cases found'
      obtain ⟨start, stop, marks⟩ := o
      obtain ⟨start', stop', marks'⟩ := o'
      dsimp only at same found found' others'
      subst same
      rw [found'] at found
      cases found
      rw [ih others']

end Compiled.Occurs

theorem patched_skip {x : Char} {put : Occurrence → List Char} (here : text[p]? = some x)
    (h : c.Occurs text (p + 1) false os) :
    patched text put p os = x :: patched text put (p + 1) os := by
  have inside := (Array.getElem?_eq_some_iff.mp here).1
  cases h with
  | last => exact stretch_cons here inside
  | next onward => simp only [patched, stretch_cons here onward, List.cons_append]

/-- If what is put in the place of each match is left over from it, the whole is left over from the
text. -/
theorem Compiled.Occurs.patched_sublist {put : Occurrence → List Char}
    (h : c.Occurs text p nonempty os) (inside : p ≤ text.size)
    (less : ∀ (o : Occurrence) (nonempty : Bool),
      c.matchAt? text nonempty o.start = some (o.stop, o.marks) →
      (put o).Sublist (stretch text o.start o.stop)) :
    (patched text put p os).Sublist (stretch text p text.size) := by
  induction h with
  | last => exact List.Sublist.refl _
  | @next p nonempty o rest onward within skipped found others ih =>
    have further := (further_of_matchAt? found).1
    have inside' := further.within within
    rw [patched, ← stretch_append onward within, ← stretch_append further.le inside',
      ← List.append_assoc]
    exact ((List.Sublist.refl _).append (less o _ found)).append (ih inside')

/-- Replacing from a position on puts what the template makes in the place of each match. -/
theorem replaceFrom_patched (t : Template) {fuel : Nat} (inside : p ≤ text.size)
    (enough : stepsLeft text p nonempty < fuel) :
    ∃ os, c.Occurs text p nonempty os
      ∧ c.replaceFrom t text fuel p nonempty
        = patched text (fun o => t.render text o.start o.stop o.marks) p os := by
  induction fuel generalizing p nonempty with
  | zero => exact absurd enough (Nat.not_lt_zero _)
  | succ fuel ih =>
    rw [Compiled.replaceFrom]
    cases matched : c.matchAt? text nonempty p with
    | some found =>
      obtain ⟨q, m⟩ := found
      obtain ⟨inside', fewer⟩ := stepsLeft_match matched inside enough
      obtain ⟨os, others, eq⟩ := ih inside' fewer
      refine ⟨⟨p, q, m⟩ :: os, .next (Nat.le_refl p) inside ?_ ?_ others, ?_⟩
      · exact fun x le lt => absurd lt (Nat.not_lt.mpr le)
      · rwa [beq_self_eq_true, Bool.and_true]
      · simp only [patched, stretch_self, List.nil_append, eq]
    | none =>
      dsimp only
      cases here : text[p]? with
      | some x =>
        have lt := (Array.getElem?_eq_some_iff.mp here).1
        obtain ⟨os, later, eq⟩ := ih lt (stepsLeft_step lt enough)
        refine ⟨os, later.skip matched, ?_⟩
        simp only [eq, patched_skip here later]
      | none =>
        have ended : p = text.size := Nat.le_antisymm inside (Array.getElem?_eq_none_iff.mp here)
        subst ended
        refine ⟨[], .last fun x le within => ?_, (stretch_self text _).symm⟩
        rwa [Nat.le_antisymm within le, beq_self_eq_true, Bool.and_true]

/-- A pattern has one sequence of matches in a text. -/
theorem Compiled.exists_unique_occurs (c : Compiled) (text : Array Char) :
    ∃! os, c.Occurs text 0 false os := by
  obtain ⟨os, h, -⟩ := replaceFrom_patched (c := c) [] (Nat.zero_le text.size)
    (Nat.lt_succ_self (stepsLeft text 0 false))
  exact ⟨os, h, fun _ h' => h'.unique h⟩

/-- Replacing every match puts what the template makes in the place of each. -/
theorem Compiled.Occurs.replace {s : List Char} (t : Template)
    (h : c.Occurs s.toArray 0 false os) :
    c.replace t s
      = patched s.toArray (fun o => t.render s.toArray o.start o.stop o.marks) 0 os := by
  obtain ⟨os', h', eq⟩ := replaceFrom_patched (c := c) t (Nat.zero_le s.toArray.size)
    (show stepsLeft s.toArray 0 false < 2 * s.length + 2 by simp [stepsLeft])
  rw [h.unique h']
  exact eq

end Neogrammar.Pattern
