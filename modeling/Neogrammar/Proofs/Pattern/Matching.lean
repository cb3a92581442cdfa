import Neogrammar.Proofs.Pattern.Reading
import Neogrammar.Proofs.Windows

/-!
# Matching what was read

A sequence runs its items from the first to the last. A sequence of tests goes on behind the
characters that pass them, or nowhere.
-/
namespace Neogrammar.Pattern

variable {text : Array Char} {s : List Char}

/-- Items, the latest first, run before a continuation. -/
def runItems (text : Array Char) (items : List (Node × ItemKind)) (k : Continuation) :
    Continuation :=
  items.foldl (fun k item => item.1.run text k) k

@[simp] theorem runItems_nil (k : Continuation) : runItems text [] k = k := rfl

@[simp] theorem runItems_cons (item : Node × ItemKind) (items : List (Node × ItemKind))
    (k : Continuation) :
    runItems text (item :: items) k = runItems text items (item.1.run text k) := rfl

theorem runItems_append (items more : List (Node × ItemKind)) (k : Continuation) :
    runItems text (items ++ more) k = runItems text more (runItems text items k) :=
  List.foldl_append ..

theorem run_joinItems (items : List (Node × ItemKind)) (k : Continuation) :
    (joinItems items).run text k = runItems text items k := by
  induction items using List.reverseRecOn with
  | nil => rfl
  | append_singleton items item ih =>
    cases items with
    | nil => rfl
    | cons last items =>
      rw [joinItems_append (List.cons_ne_nil _ _), Node.run, ih, runItems_append]
      rfl

/-- Tests go on behind the characters that pass them. -/
theorem runItems_itemsOf (tests : List CharTest) (k : Continuation) (p : Nat) (m : Marks) :
    runItems s.toArray (itemsOf tests) k p m
      = if fits (tests.map CharTest.holds) (s.drop p) then k (p + tests.length) m else none := by
  induction tests generalizing p with
  | nil => simp [itemsOf]
  | cons test tests ih =>
    have here : s.toArray[p]? = (s.drop p)[0]? := by simp
    rw [itemsOf_cons, runItems_append, runItems_cons, runItems_nil]
    simp only [Node.run, here]
    cases hd : s.drop p with
    | nil => simp
    | cons c rest =>
      have tail : s.drop (p + 1) = rest := by rw [← List.drop_drop, hd]; rfl
      cases hc : test.holds c with
      | true => simp [hc, ih, tail, Nat.add_assoc, Nat.add_comm 1]
      | false => simp [hc]

/-- A group of tests keeps where it started and stopped. -/
theorem run_group (tests : List CharTest) (n : Nat) (k : Continuation) (p : Nat) (m : Marks) :
    (Node.group n (joinItems (itemsOf tests))).run s.toArray k p m
      = if fits (tests.map CharTest.holds) (s.drop p)
        then k (p + tests.length) ((m.opened n p).closed n (p + tests.length))
        else none := by
  simp only [Node.run, run_joinItems, runItems_itemsOf]

theorem stretch_toArray (s : List Char) (a b : Nat) :
    stretch s.toArray a b = (s.drop a).take (b - a) := by
  simp [stretch, List.extract_eq_take_drop]

/-- A sequence has a fault exactly if one of its items has. -/
theorem defect?_joinItems_iff {noRepeats : Bool} {items : List (Node × ItemKind)} :
    (joinItems items).defect? noRepeats = none
      ↔ ∀ item ∈ items, item.1.defect? noRepeats = none := by
  induction items using List.reverseRecOn with
  | nil => simp [joinItems, Node.defect?]
  | append_singleton items item ih =>
    rw [List.forall_mem_append, List.forall_mem_singleton]
    cases items with
    | nil => simp [joinItems]
    | cons last items =>
      rw [joinItems_append (List.cons_ne_nil _ _), Node.defect?, Option.or_eq_none_iff, ih,
        and_comm]

theorem defect?_itemsOf (noRepeats : Bool) (tests : List CharTest) :
    ∀ item ∈ itemsOf tests, item.1.defect? noRepeats = none := by
  intro item hi
  simp only [itemsOf, List.mem_reverse, List.mem_map] at hi
  obtain ⟨test, -, rfl⟩ := hi
  rfl

/-! ## Nothing found -/

/-- The continuation that accepts nothing. -/
def refuse : Continuation := fun _ _ => none

section
variable {body : Continuation → Continuation} (hb : body refuse = refuse)
include hb

theorem repeatGreedy_refuse (low : Nat) (high : Option Nat) (fuel count : Nat) (last : Option Nat) :
    repeatGreedy body low high refuse fuel count last = refuse := by
  induction fuel generalizing count last with
  | zero => rfl
  | succ fuel ih =>
    funext p m
    simp only [repeatGreedy, ih, hb]
    simp [refuse]

theorem repeatLazy_refuse (low : Nat) (high : Option Nat) (fuel count : Nat) (last : Option Nat) :
    repeatLazy body low high refuse fuel count last = refuse := by
  induction fuel generalizing count last with
  | zero => rfl
  | succ fuel ih =>
    funext p m
    simp only [repeatLazy, ih, hb]
    simp [refuse]

end

theorem repeatPossessive_refuse (body : Continuation → Continuation) (low : Nat)
    (high : Option Nat) (fuel count : Nat) (last : Option Nat) :
    repeatPossessive body low high refuse fuel count last = refuse := by
  induction fuel generalizing count last with
  | zero => rfl
  | succ fuel ih =>
    funext p m
    simp only [repeatPossessive, ih]
    cases body accept p m <;> simp [refuse]

/-- Before a continuation that accepts nothing, nothing is found. -/
theorem run_refuse (node : Node) : node.run text refuse = refuse := by
  induction node with
  | empty => rfl
  | seq a b iha ihb => rw [Node.run, ihb, iha]
  | group n body ih => 
    funext p m
    exact congrFun (congrFun ih p) _
  | «repeat» greed low high body ih =>
    funext p m
    cases greed with
    | greedy => simp only [Node.run, repeatGreedy_refuse ih]
    | lazy => simp only [Node.run, repeatLazy_refuse ih]
    | possessive => simp only [Node.run, repeatPossessive_refuse]
  | alt a b iha ihb =>
    funext p m
    simp only [Node.run, iha, ihb, refuse]
  | branch n yes no ihy ihn =>
    funext p m
    simp only [Node.run, ihy, ihn, ite_self]
  | ahead negated body ih =>
    funext p m
    cases negated <;> simp only [Node.run] <;> cases body.run text accept p m <;> rfl
  | behind negated width body ih =>
    funext p m
    cases negated <;> simp only [Node.run] <;> cases body.run text accept (p - width.1) m <;>
      simp [refuse]
  | atomic body ih =>
    funext p m
    simp only [Node.run]
    cases body.run text accept p m <;> rfl
  | char test =>
    funext p m
    simp only [Node.run]
    cases text[p]? <;> simp [refuse]
  | reference n fold =>
    funext p m
    simp only [Node.run]
    cases m.span? n with
    | none => rfl
    | some span =>
      dsimp only
      cases matchAgain text fold span.1 span.2 p <;> rfl
  | anchor place =>
    funext p m
    simp only [Node.run, refuse, ite_self]

theorem runItems_refuse (items : List (Node × ItemKind)) : runItems text items refuse = refuse := by
  induction items with
  | nil => rfl
  | cons item items ih => rw [runItems_cons, run_refuse, ih]

/-- A group of tests that fit nowhere finds nothing. -/
theorem run_group_misfit {tests : List CharTest}
    (h : ∀ p, fits (tests.map CharTest.holds) (s.drop p) = false) (n : Nat) (k : Continuation) :
    (Node.group n (joinItems (itemsOf tests))).run s.toArray k = refuse := by
  funext p m
  rw [run_group, h p]
  rfl

/-- A text without a match stays as it is. -/
theorem replace_unmatched {c : Compiled} (h : ∀ k, c.root.run s.toArray k = refuse)
    (t : Template) : c.replace t s = s := by
  have onward : ∀ fuel p nonempty, s.length < p + fuel →
      c.replaceFrom t s.toArray fuel p nonempty = s.drop p := by
    intro fuel
    induction fuel with
    | zero =>
      intro p nonempty enough
      rw [List.drop_eq_nil_of_le (by omega), Compiled.replaceFrom]
    | succ fuel ih =>
      intro p nonempty enough
      have missed : c.matchAt? s.toArray nonempty p = none := by
        rw [Compiled.matchAt?, h]
        rfl
      simp only [Compiled.replaceFrom, missed, List.getElem?_toArray]
      cases here : s[p]? with
      | none => rw [List.drop_eq_nil_of_le (List.getElem?_eq_none_iff.mp here)]
      | some c =>
        obtain ⟨hp, hc⟩ := List.getElem?_eq_some_iff.mp here
        rw [List.drop_eq_getElem_cons hp, hc]
        simp only [ih (p + 1) false (by omega)]
  exact onward _ 0 false (by omega)

end Neogrammar.Pattern
