import Neogrammar.Proofs.SoundChange.Unit

/-!
# Units as windows

Matching the pattern of a unit at a place is asking whether its window fits there, so replacing
every match is the scan from left to right that rewrites windows.
-/
namespace Neogrammar.SoundChange

open Pattern

/-- The window of a unit. -/
def windowOf (before target after : List CharTest) (replacement : List Char) : Window :=
  ⟨before.map CharTest.holds, target.map CharTest.holds, after.map CharTest.holds, replacement⟩

section
variable {b t a : List CharTest} {replacement s : List Char} {p : Nat} {nonempty : Bool}

theorem tests_windowOf :
    (windowOf b t a replacement).tests = (b ++ t ++ a).map CharTest.holds := by
  simp [windowOf, Window.tests]

theorem length_windowOf :
    (windowOf b t a replacement).length = b.length + t.length + a.length := by
  simp [Window.length, tests_windowOf, Nat.add_assoc]

/-- The marks of a match: both groups around a middle of `t` characters. -/
def unitMarks (p b t a : Nat) : Marks :=
  ⟨[none, some p, some (p + b + t)], [none, some (p + b), some (p + b + t + a)]⟩

theorem span?_unitMarks_before (p b t a : Nat) :
    (unitMarks p b t a).span? 1 = some (p, p + b) := by
  simp [unitMarks, Marks.span?]

theorem span?_unitMarks_after (p b t a : Nat) :
    (unitMarks p b t a).span? 2 = some (p + b + t, p + b + t + a) := by
  simp [unitMarks, Marks.span?]

/-- A unit goes on behind three parts that fit, with both groups marked. -/
theorem run_unitNode (k : Continuation) :
    (unitNode b t a).run s.toArray k p (.none 2)
      = if fits ((b ++ t ++ a).map CharTest.holds) (s.drop p)
        then k (p + b.length + t.length + a.length) (unitMarks p b.length t.length a.length)
        else none := by
  have parts : fits ((b ++ t ++ a).map CharTest.holds) (s.drop p)
      = (fits (b.map CharTest.holds) (s.drop p)
        && fits (t.map CharTest.holds) (s.drop (p + b.length))
        && fits (a.map CharTest.holds) (s.drop (p + b.length + t.length))) := by
    simp only [List.map_append, fits_append, List.length_append, List.length_map, List.drop_drop,
      Nat.add_assoc]
  simp only [unitNode, run_joinItems, runItems_cons, runItems_append, runItems_nil, run_group,
    runItems_itemsOf, parts]
  cases fits (b.map CharTest.holds) (s.drop p) with
  | false => simp
  | true =>
    cases fits (t.map CharTest.holds) (s.drop (p + b.length)) with
    | false => simp
    | true => rfl

/-- A unit matches where its window fits. -/
theorem matchAt?_unit (h : 0 < b.length + t.length + a.length) :
    (unitOf b t a).matchAt? s.toArray nonempty p
      = if fits ((b ++ t ++ a).map CharTest.holds) (s.drop p)
        then some (p + b.length + t.length + a.length, unitMarks p b.length t.length a.length)
        else none := by
  have moves : (p + b.length + t.length + a.length == p) = false := beq_false_of_ne (by omega)
  simp only [Compiled.matchAt?, unitOf, run_unitNode, moves, Bool.and_false, Bool.false_eq_true,
    ↓reduceIte]

theorem render_append (u v : Template) (text : Array Char) (x y : Nat) (m : Marks) :
    Template.render (u ++ v) text x y m = u.render text x y m ++ v.render text x y m :=
  List.flatMap_append

theorem render_group (n : Nat) (text : Array Char) (x y : Nat) (m : Marks) :
    Template.render [.group n] text x y m = groupText text x y m n := by
  simp [Template.render]

theorem render_text (text : Array Char) (x y : Nat) (m : Marks) (r : List Char) :
    Template.render (r.map fun c => .text [c]) text x y m = r := by
  induction r with
  | nil => rfl
  | cons c r ih => exact congrArg (c :: ·) ih

/-- The replacement stands between the texts of both groups. -/
theorem render_aroundPieces (b a : Nat) (r : List Char) (text : Array Char) (x y : Nat)
    (m : Marks) : (aroundPieces b a r).render text x y m
      = groupText text x y m b ++ r ++ groupText text x y m a := by
  have parts : aroundPieces b a r
      = [.group b] ++ (r.map fun c => .text [c]) ++ [.group a] := rfl
  rw [parts, render_append, render_append, render_group, render_text, render_group]

/-- A match becomes what its window becomes. -/
theorem render_unit (q : Nat) :
    (unitPieces replacement).render s.toArray p q (unitMarks p b.length t.length a.length)
      = (windowOf b t a replacement).rewritten (s.drop p) := by
  have before : groupText s.toArray p q (unitMarks p b.length t.length a.length) 1
      = (s.drop p).take b.length := by
    simp only [groupText, span?_unitMarks_before, stretch_toArray, Nat.one_ne_zero, ↓reduceIte,
      Nat.add_sub_cancel_left]
  have after : groupText s.toArray p q (unitMarks p b.length t.length a.length) 2
      = (s.drop (p + b.length + t.length)).take a.length := by
    simp only [groupText, span?_unitMarks_after, stretch_toArray, show (2 : Nat) ≠ 0 by decide,
      ↓reduceIte,
      Nat.add_sub_cancel_left]
  rw [show unitPieces replacement = aroundPieces 1 2 replacement from rfl, render_aroundPieces,
    before, after]
  simp [windowOf, Window.rewritten, Nat.add_assoc]

/-- Replacing every match from a place on is the scan from that place on. -/
theorem replaceFrom_unit (h : 0 < b.length + t.length + a.length) {fuel : Nat}
    (enough : s.length < p + fuel) :
    (unitOf b t a).replaceFrom (unitPieces replacement) s.toArray fuel p nonempty
      = (windowOf b t a replacement).rewrite (s.drop p) := by
  induction fuel generalizing p nonempty with
  | zero => 
    rw [List.drop_eq_nil_of_le (by omega), Window.rewrite_nil, Compiled.replaceFrom]
  | succ fuel ih =>
    rw [Compiled.replaceFrom, matchAt?_unit h]
    cases fit : fits ((b ++ t ++ a).map CharTest.holds) (s.drop p) with
    | true =>
      have room := length_le_of_fits fit
      rw [List.length_map, List.length_append, List.length_append, List.length_drop] at room
      have wide : 0 < (windowOf b t a replacement).length := by rwa [length_windowOf]
      have onward := Window.rewrite_fit wide (show fits _ (s.drop p) = true by rwa [tests_windowOf])
      simp only [↓reduceIte, render_unit]
      rw [ih (by omega), onward, length_windowOf, List.drop_drop, ← Nat.add_assoc, ← Nat.add_assoc]
    | false =>
      simp only [Bool.false_eq_true, ↓reduceIte, List.getElem?_toArray]
      cases here : s[p]? with
      | none =>
        rw [List.drop_eq_nil_of_le (List.getElem?_eq_none_iff.mp here), Window.rewrite_nil]
      | some c =>
        obtain ⟨hp, hc⟩ := List.getElem?_eq_some_iff.mp here
        have split : s.drop p = c :: s.drop (p + 1) := by rw [List.drop_eq_getElem_cons hp, hc]
        rw [split] at fit ⊢
        rw [Window.rewrite_misfit (by rw [tests_windowOf]; exact fit)]
        simp only [ih (show s.length < p + 1 + fuel by omega)]

end

/-- Replacing every match of a unit rewrites its windows. -/
theorem replace_unit {b t a : List CharTest} (h : 0 < b.length + t.length + a.length)
    (replacement s : List Char) :
    (unitOf b t a).replace (unitPieces replacement) s
      = (windowOf b t a replacement).rewrite s :=
  replaceFrom_unit h (by omega)

/-- A unit is accepted, and applying it once rewrites its windows. -/
theorem ofTexts_unit {before target after : List (List Char)} {b t a : List CharTest}
    (hb : List.Forall₂ ReadsAs before b) (ht : List.Forall₂ ReadsAs target t)
    (ha : List.Forall₂ ReadsAs after a) (h : 0 < b.length + t.length + a.length)
    (replacement : List Char) (rule : String) (limits : Limits) :
    ∃ sub, Substitution.ofTexts
        (String.ofList (unitPattern before.flatten target.flatten after.flatten))
        (String.ofList (unitTemplate replacement)) rule limits = .ok sub
      ∧ ∀ text, sub.applyOnce text
          = String.ofList ((windowOf b t a replacement).rewrite text.toList) := by
  have parsed := parse_unit hb ht ha
  have template := readTemplate_unit b t a replacement
  simp only [Substitution.ofTexts, String.toList_ofList, parsed, template]
  refine ⟨_, rfl, ?_⟩
  intro text
  simp only [Substitution.applyOnce, replace_unit h]

end Neogrammar.SoundChange
