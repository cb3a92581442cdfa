import Mathlib.Data.Option.Basic
import Neogrammar.Proofs.Pattern.Follow
import Neogrammar.Proofs.Pattern.Known
import Neogrammar.Proofs.Pattern.Matching

/-!
# Matching between two empty groups

A pattern that is renumbered to stand between two more groups matches as it did: its own groups are
marked alike, and the two groups are either empty or took no part. This holds of every part of a
pattern before any continuation, so it holds of what repeats and of what looks around.
-/
namespace Neogrammar.Pattern

/-- Marks with one more before all but the first and one more at the end. -/
def flank (x y : Option Nat) : List (Option Nat) → List (Option Nat)
  | [] => []
  | whole :: marks => whole :: x :: (marks ++ [y])

theorem getElem?_flank {x y : Option Nat} {marks : List (Option Nat)} {n : Nat}
    (h : n < marks.length) : (flank x y marks)[later n]? = marks[n]? := by
  cases marks with
  | nil => exact absurd h (Nat.not_lt_zero n)
  | cons whole marks =>
    cases n with
    | zero => rfl
    | succ n =>
      show (marks ++ [y])[n]? = marks[n]?
      exact List.getElem?_append_left (Nat.lt_of_succ_lt_succ h)

theorem set_flank {x y a : Option Nat} {marks : List (Option Nat)} {n : Nat}
    (h : n < marks.length) : (flank x y marks).set (later n) a = flank x y (marks.set n a) := by
  cases marks with
  | nil => exact absurd h (Nat.not_lt_zero n)
  | cons whole marks =>
    cases n with
    | zero => rfl
    | succ n =>
      show whole :: x :: (marks ++ [y]).set n a = whole :: x :: (marks.set n a ++ [y])
      rw [List.set_append_left _ _ (Nat.lt_of_succ_lt_succ h)]

/-- The same marks with those of two more groups around, which start where they stop. -/
def Marks.flanked (m : Marks) (x y : Option Nat) : Marks := ⟨flank x y m.starts, flank x y m.stops⟩

/-- Marks of `groups` groups, and marks with two more groups around. -/
structure Flanked (groups : Nat) (m m' : Marks) : Prop where
  starts : m.starts.length = groups + 1
  stops : m.stops.length = groups + 1
  around : ∃ x y, m' = m.flanked x y

/-- Matches with the same end, and with marks alike. -/
def SameMatch (groups : Nat) (f f' : Found) : Prop := f'.1 = f.1 ∧ Flanked groups f.2 f'.2

/-- Continuations that find the same match. -/
def Agree (groups : Nat) (k k' : Continuation) : Prop :=
  ∀ p m m', Flanked groups m m' → Option.Rel (SameMatch groups) (k p m) (k' p m')

variable {groups n p : Nat} {m m' : Marks} {k k' : Continuation} {text : Array Char}

namespace Flanked

theorem none (groups : Nat) : Flanked groups (.none groups) (.none (groups + 2)) where
  starts := List.length_replicate
  stops := List.length_replicate
  around := by
    have marks : List.replicate (groups + 2 + 1) Option.none
        = flank .none .none (List.replicate (groups + 1) Option.none) := by
      rw [List.replicate_succ (n := groups), flank, ← List.replicate_succ', ← List.replicate_succ,
        ← List.replicate_succ]
    exact ⟨.none, .none, by simp only [Marks.none, Marks.flanked, marks]⟩

theorem span? (h : Flanked groups m m') (lt : n < groups + 1) :
    m'.span? (later n) = m.span? n := by
  obtain ⟨x, y, rfl⟩ := h.around
  simp only [Marks.span?, Marks.flanked, getElem?_flank (h.starts.symm ▸ lt),
    getElem?_flank (h.stops.symm ▸ lt)]

theorem opened (h : Flanked groups m m') (lt : n < groups + 1) (p : Nat) :
    Flanked groups (m.opened n p) (m'.opened (later n) p) := by
  obtain ⟨x, y, rfl⟩ := h.around
  refine ⟨by simp [Marks.opened, h.starts], h.stops, x, y, ?_⟩
  simp only [Marks.opened, Marks.flanked, set_flank (h.starts.symm ▸ lt)]

theorem closed (h : Flanked groups m m') (lt : n < groups + 1) (p : Nat) :
    Flanked groups (m.closed n p) (m'.closed (later n) p) := by
  obtain ⟨x, y, rfl⟩ := h.around
  refine ⟨h.starts, by simp [Marks.closed, h.stops], x, y, ?_⟩
  simp only [Marks.closed, Marks.flanked, set_flank (h.stops.symm ▸ lt)]

end Flanked

theorem agree_accept : Agree groups accept accept := fun _ _ _ h => .some ⟨rfl, h⟩

/-- What is done with a match found, and what is done where none is. -/
theorem rel_then {x x' e e' : Option Found} {f f' : Found → Option Found} :
    Option.Rel (SameMatch groups) x x' →
    (∀ a a', SameMatch groups a a' → Option.Rel (SameMatch groups) (f a) (f' a')) →
    Option.Rel (SameMatch groups) e e' → Option.Rel (SameMatch groups)
      (match x with
        | some a => f a
        | none => e)
      (match x' with
        | some a => f' a
        | none => e') := by
  intro h found missed
  cases h with
  | some h => exact found _ _ h
  | none => exact missed

/-- How matching goes on from a match found. -/
theorem rel_onward {x x' e e' : Option Found} {f f' : Continuation} :
    Option.Rel (SameMatch groups) x x' → Agree groups f f' → Option.Rel (SameMatch groups) e e' →
    Option.Rel (SameMatch groups)
      (match x with
        | some (q, m) => f q m
        | none => e)
      (match x' with
        | some (q, m) => f' q m
        | none => e') := by
  intro h onward missed
  cases h with
  | some h =>
    obtain ⟨same, marks⟩ := h
    dsimp only
    rw [same]
    exact onward _ _ _ marks
  | none => exact missed

section
variable {body body' : Continuation → Continuation}
  (hb : ∀ {k k'}, Agree groups k k' → Agree groups (body k) (body' k'))
include hb

theorem agree_repeatGreedy (hk : Agree groups k k') (low : Nat) (high : Option Nat)
    (fuel count : Nat) (last : Option Nat) :
    Agree groups (repeatGreedy body low high k fuel count last)
      (repeatGreedy body' low high k' fuel count last) := by
  induction fuel generalizing count last with
  | zero => exact fun _ _ _ _ => .none
  | succ fuel ih =>
    intro p m m' h
    simp only [repeatGreedy]
    split
    · exact hb (ih (count + 1) last) p m m' h
    · split
      · exact rel_then (hb (ih (count + 1) (some p)) p m m' h) (fun _ _ => .some) (hk p m m' h)
      · exact hk p m m' h

theorem agree_repeatLazy (hk : Agree groups k k') (low : Nat) (high : Option Nat) (fuel count : Nat)
    (last : Option Nat) : Agree groups (repeatLazy body low high k fuel count last)
      (repeatLazy body' low high k' fuel count last) := by
  induction fuel generalizing count last with
  | zero => exact fun _ _ _ _ => .none
  | succ fuel ih =>
    intro p m m' h
    simp only [repeatLazy]
    split
    · exact hb (ih (count + 1) last) p m m' h
    · refine rel_then (hk p m m' h) (fun _ _ => .some) ?_
      split
      · exact hb (ih (count + 1) (some p)) p m m' h
      · exact .none

theorem agree_repeatPossessive (hk : Agree groups k k') (low : Nat) (high : Option Nat)
    (fuel count : Nat) (last : Option Nat) :
    Agree groups (repeatPossessive body low high k fuel count last)
      (repeatPossessive body' low high k' fuel count last) := by
  induction fuel generalizing count last with
  | zero => exact fun _ _ _ _ => .none
  | succ fuel ih =>
    intro p m m' h
    simp only [repeatPossessive]
    have round := hb agree_accept p m m' h
    split
    · exact rel_onward round (ih (count + 1) last) .none
    · split
      · exact rel_onward round (ih (count + 1) (some p)) (hk p m m' h)
      · exact hk p m m' h

end

/-- A pattern and its renumbered form find the same matches before continuations that do. -/
theorem agree_renumber {node : Node} (each : node.EachGroup (· < groups + 1))
    (hk : Agree groups k k') :
    Agree groups (node.run text k) ((node.renumber later).run text k') := by
  induction node generalizing k k' with
  | empty => exact hk
  | char test =>
    intro p m m' h
    simp only [Node.renumber, Node.run]
    cases text[p]? with
    | none => exact .none
    | some c =>
      dsimp only
      split
      · exact hk (p + 1) m m' h
      · exact .none
  | seq a b iha ihb => exact iha each.1 (ihb each.2 hk)
  | alt a b iha ihb =>
    intro p m m' h
    exact rel_then (iha each.1 hk p m m' h) (fun _ _ => .some) (ihb each.2 hk p m m' h)
  | group n body ih =>
    intro p m m' h
    exact ih each.2 (fun q _ _ h => hk q _ _ (h.closed each.1 q)) p _ _ (h.opened each.1 p)
  | «repeat» greed low high body ih =>
    intro p m m' h
    cases greed with
    | greedy => exact agree_repeatGreedy (ih each) hk low high _ 0 none p m m' h
    | lazy => exact agree_repeatLazy (ih each) hk low high _ 0 none p m m' h
    | possessive => exact agree_repeatPossessive (ih each) hk low high _ 0 none p m m' h
  | ahead negated body ih =>
    intro p m m' h
    have inner := ih each agree_accept p m m' h
    cases negated with
    | false => exact rel_onward inner (fun _ => hk p) .none
    | true => exact rel_then inner (fun _ _ _ => .none) (hk p m m' h)
  | behind negated width body ih =>
    intro p m m' h
    cases negated with
    | false =>
      simp only [Node.renumber, Node.run]
      split
      · exact .none
      · exact rel_onward (ih each agree_accept _ m m' h) (fun _ => hk p) .none
    | true =>
      simp only [Node.renumber, Node.run]
      split
      · exact hk p m m' h
      · exact rel_then (ih each agree_accept _ m m' h) (fun _ _ _ => .none) (hk p m m' h)
  | atomic body ih =>
    intro p m m' h
    exact rel_onward (ih each agree_accept p m m' h) hk .none
  | reference n fold =>
    intro p m m' h
    simp only [Node.renumber, Node.run, h.span? each]
    cases m.span? n with
    | none => exact .none
    | some span =>
      dsimp only
      cases matchAgain text fold span.1 span.2 p with
      | none => exact .none
      | some q => exact hk q m m' h
  | branch n yes no ihy ihn =>
    intro p m m' h
    simp only [Node.renumber, Node.run, h.span? each.1]
    split
    · exact ihy each.2.1 hk p m m' h
    · exact ihn each.2.2 hk p m m' h
  | anchor place =>
    intro p m m' h
    simp only [Node.renumber, Node.run]
    split
    · exact hk p m m' h
    · exact .none

/-! ## The two groups -/

/-- The mark of the group before. -/
theorem set_flank_front {x y a : Option Nat} (marks : List (Option Nat)) :
    (flank x y marks).set 1 a = flank a y marks := by
  cases marks <;> rfl

/-- The mark of the group behind. -/
theorem set_flank_back {x y a : Option Nat} {marks : List (Option Nat)}
    (h : marks.length = groups + 1) : (flank x y marks).set (groups + 2) a = flank x a marks := by
  cases marks with
  | nil => cases h
  | cons whole marks =>
    show whole :: x :: (marks ++ [y]).set groups a = whole :: x :: (marks ++ [a])
    rw [List.set_append_right _ _ (Nat.le_of_eq (Nat.succ.inj h)), Nat.succ.inj h, Nat.sub_self]
    rfl

theorem agree_front (hk : Agree groups k k') :
    Agree groups k ((Node.group 1 .empty).run text k') := by
  intro p m m' h
  obtain ⟨x, y, rfl⟩ := h.around
  refine hk p m _ ⟨h.starts, h.stops, some p, y, ?_⟩
  simp only [Marks.opened, Marks.closed, Marks.flanked, set_flank_front]

theorem agree_back (hk : Agree groups k k') :
    Agree groups k ((Node.group (groups + 2) .empty).run text k') := by
  intro p m m' h
  obtain ⟨x, y, rfl⟩ := h.around
  refine hk p m _ ⟨h.starts, h.stops, x, some p, ?_⟩
  simp only [Marks.opened, Marks.closed, Marks.flanked, set_flank_back h.starts,
    set_flank_back h.stops]

/-- A group that starts where it stops has no text. -/
theorem groupText_empty {n q : Nat} {x : Option Nat} (hn : n ≠ 0) (starts : m.starts[n]? = some x)
    (stops : m.stops[n]? = some x) : groupText text p q m n = [] := by
  rw [groupText, if_neg hn, Marks.span?, starts, stops]
  cases x with
  | none => rfl
  | some a => simp [stretch]

theorem Flanked.groupText_front (h : Flanked groups m m') (q : Nat) :
    groupText text p q m' 1 = [] := by
  obtain ⟨x, y, rfl⟩ := h.around
  have front : ∀ {marks : List (Option Nat)}, marks.length = groups + 1 →
      (flank x y marks)[1]? = some x := by
    intro marks length
    cases marks with
    | nil => cases length
    | cons whole marks => rfl
  exact groupText_empty Nat.one_ne_zero (front h.starts) (front h.stops)

theorem Flanked.groupText_back (h : Flanked groups m m') (q : Nat) :
    groupText text p q m' (groups + 2) = [] := by
  obtain ⟨x, y, rfl⟩ := h.around
  have back : ∀ {marks : List (Option Nat)}, marks.length = groups + 1 →
      (flank x y marks)[groups + 2]? = some y := by
    intro marks length
    cases marks with
    | nil => cases length
    | cons whole marks =>
      show (marks ++ [y])[groups]? = some y
      rw [← Nat.succ.inj length, List.getElem?_concat_length]
  exact groupText_empty (Nat.succ_ne_zero _) (back h.starts) (back h.stops)

/-! ## Trees between the two groups -/

/-- A tree that finds what another finds, and has no fault that the other has not. -/
structure Between (groups : Nat) (node node' : Node) : Prop where
  agree : ∀ {text k k'}, Agree groups k k' → Agree groups (node.run text k) (node'.run text k')
  defect : ∀ {noRepeats}, node.defect? noRepeats = none → node'.defect? noRepeats = none

theorem Between.alt {a b a' b' : Node} (first : Between groups a a')
    (second : Between groups b b') : Between groups (.alt a b) (.alt a' b') where
  agree hk := fun p m m' h =>
    rel_then (first.agree hk p m m' h) (fun _ _ => .some) (second.agree hk p m m' h)
  defect h := by
    rw [Node.defect?, Option.or_eq_none_iff] at h ⊢
    exact ⟨first.defect h.1, second.defect h.2⟩

/-- Items of an empty group, or none. -/
def AtMost (n : Nat) (items : Items) : Prop := items = [] ∨ items = [(.group n .empty, .plain)]

/-- A sequence of renumbered items, with or without the two groups around. -/
theorem between_joinItems {items items' front back : Items}
    (each : (joinItems items).EachGroup (· < groups + 1))
    (follow : List.Forall₂ (ItemFollows True) items items') (hf : AtMost 1 front)
    (hb : AtMost (groups + 2) back) :
    Between groups (joinItems items) (joinItems (back ++ (items' ++ front))) where
  agree := by
    intro text k k' hk
    have behind : Agree groups k (runItems text back k') := by
      rcases hb with rfl | rfl
      · exact hk
      · rw [runItems_cons, runItems_nil]
        exact agree_back hk
    have own : Agree groups ((joinItems items).run text k)
        (((joinItems items).renumber later).run text (runItems text back k')) :=
      agree_renumber each behind
    rw [← joinItems_follows follow trivial, run_joinItems items'] at own
    rw [run_joinItems (back ++ _), runItems_append, runItems_append]
    rcases hf with rfl | rfl
    · exact own
    · rw [runItems_cons, runItems_nil]
      exact agree_front own
  defect := by
    intro noRepeats sound
    have group : ∀ {n : Nat} {extra : Items}, AtMost n extra →
        ∀ item ∈ extra, item.1.defect? noRepeats = none := by
      rintro n extra (rfl | rfl) item hi
      · cases hi
      · rw [List.mem_singleton.mp hi]
        rfl
    rw [← Node.defect?_renumber later, ← joinItems_follows follow trivial,
      defect?_joinItems_iff] at sound
    refine defect?_joinItems_iff.mpr fun item hi => ?_
    rcases List.mem_append.mp hi with hi | hi
    · exact group hb item hi
    · rcases List.mem_append.mp hi with hi | hi
      · exact sound item hi
      · exact group hf item hi

end Neogrammar.Pattern
