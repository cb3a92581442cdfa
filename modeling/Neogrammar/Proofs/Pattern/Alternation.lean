import Neogrammar.Proofs.Pattern.Grammar
import Neogrammar.Proofs.Pattern.Matching

/-!
# Alternatives

Alternatives that are sequences of tests are tried from the first to the last, and so is a group of
them that keeps nothing. A text that is read as one item is, as a pattern, that item alone.
-/
namespace Neogrammar.Pattern

open Reader

variable {fuel p : Nat} {g : Groups} {s rest : List Char}

/-! ## Reading alternatives -/

/-- The only alternative of a group is the sequence of its pieces. -/
theorem alternatives_pieces {fuel : Nat} {g : Groups} {pieces : List (List Char)}
    {tests : List CharTest} (h : List.Forall₂ ReadsAs pieces tests) (hr : Whole (')' :: rest))
    (enough : pieces.length < fuel) :
    alternatives fuel false .none g ⟨p, pieces.flatten ++ ')' :: rest⟩
      = .ok ⟨joinItems (itemsOf tests), .none, g, ⟨p + pieces.flatten.length, ')' :: rest⟩⟩ := by
  obtain ⟨more, rfl⟩ : ∃ more, fuel = more + pieces.length + 1 :=
    ⟨fuel - pieces.length - 1, by omega⟩
  have no_bar : (⟨p + pieces.flatten.length, ')' :: rest⟩ : Reader).accept '|'
      = .ok (false, ⟨p + pieces.flatten.length, ')' :: rest⟩) :=
    accept_unseen (by rw [next_plain (by decide)]; decide)
  rw [alternatives, sequence_pieces h hr, sequence_bracket, List.append_nil]
  simp only [ok_bind, no_bar, pure_eq_ok, Bool.false_eq_true, ↓reduceIte]

theorem forall₂_map {α β γ : Type} {R : β → γ → Prop} {f : α → β} {f' : α → γ} {as : List α}
    (h : ∀ a ∈ as, R (f a) (f' a)) : List.Forall₂ R (as.map f) (as.map f') :=
  List.forall₂_map_left_iff.mpr (List.forall₂_map_right_iff.mpr (List.forall₂_same.mpr h))

/-- What alternatives that are sequences of tests are read as. -/
def choiceOf : List (List CharTest) → Node
  | [] => .empty
  | [tests] => joinItems (itemsOf tests)
  | tests :: next :: more => .alt (joinItems (itemsOf tests)) (choiceOf (next :: more))

/-- The text of alternatives, with bars between them. -/
def barred (pieces : List (List (List Char))) : List Char :=
  List.intercalate ['|'] (pieces.map List.flatten)

theorem barred_singleton (pieces : List (List Char)) : barred [pieces] = pieces.flatten := by
  simp [barred]

theorem barred_cons (first second : List (List Char)) (more : List (List (List Char))) :
    barred (first :: second :: more) = first.flatten ++ '|' :: barred (second :: more) := by
  simp [barred, List.intercalate]

section
variable {pieces : List (List (List Char))} {tests : List (List CharTest)}

theorem whole_barred (h : List.Forall₂ (List.Forall₂ ReadsAs) pieces tests) (hr : Whole rest) :
    Whole (barred pieces ++ rest) := by
  cases h with
  | nil => exact hr
  | cons one others =>
    cases others with
    | nil =>
      rw [barred_singleton]
      exact whole_flatten one hr
    | cons =>
      rw [barred_cons, List.append_assoc]
      exact whole_flatten one (whole_cons (by decide))

/-- Alternatives with bars between them are read one after the other. -/
theorem alternatives_choice (h : List.Forall₂ (List.Forall₂ ReadsAs) pieces tests)
    (hr : Whole (')' :: rest)) (enough : (barred pieces).length < fuel) :
    alternatives fuel false .none g ⟨p, barred pieces ++ ')' :: rest⟩
      = .ok ⟨choiceOf tests, .none, g, ⟨p + (barred pieces).length, ')' :: rest⟩⟩ := by
  induction h generalizing fuel p with
  | nil => exact alternatives_pieces .nil hr enough
  | @cons first _ _ _ one others ih =>
    have short := length_le_flatten one
    cases others with
    | nil =>
      rw [barred_singleton] at enough ⊢
      exact alternatives_pieces one hr (by omega)
    | @cons second _ more _ two others =>
      simp only [barred_cons, List.length_append, List.length_cons, List.append_assoc,
        List.cons_append] at enough ⊢
      -- an alternative takes one step of the later ones, its bar one character of their text
      obtain ⟨left, rfl⟩ : ∃ left, fuel = left + first.length + 1 :=
        ⟨fuel - first.length - 1, by omega⟩
      have bar : (⟨p + first.flatten.length, '|' :: (barred (second :: more) ++ ')' :: rest)⟩
            : Reader).accept '|'
          = .ok (true, ⟨p + first.flatten.length + 1, barred (second :: more) ++ ')' :: rest⟩) :=
        accept_seen (by decide) (whole_barred (.cons two others) hr)
      have stops :
          Stops ⟨p + first.flatten.length, '|' :: (barred (second :: more) ++ ')' :: rest)⟩ :=
        .inr (.inl (next_plain (by decide)))
      have later := @ih (left + first.length) (p + first.flatten.length + 1) (by omega)
      have length : p + first.flatten.length + 1 + (barred (second :: more)).length
          = p + (first.flatten.length + ((barred (second :: more)).length + 1)) := by omega
      rw [alternatives, sequence_pieces one (whole_cons (by decide)), sequence_stop stops,
        List.append_nil]
      simp only [ok_bind, bar, ↓reduceIte, later, length, pure_eq_ok, choiceOf]

end

theorem opening_scoped (hr : Whole rest) :
    opening ⟨p, '?' :: ':' :: rest⟩ = .ok (.scoped [] [], ⟨p + 2, rest⟩) := by
  have mark : (⟨p, '?' :: ':' :: rest⟩ : Reader).accept '?' = .ok (true, ⟨p + 1, ':' :: rest⟩) :=
    accept_seen (by decide) (whole_cons (by decide))
  simp only [opening, mark, ok_bind, Bool.not_true, Bool.false_eq_true, ↓reduceIte,
    next_plain (show ':' ≠ '\\' by decide), advance_plain (show ':' ≠ '\\' by decide) hr,
    pure_eq_ok]

/-! ## Texts that are one item -/

/-- A text that is read as one item, with steps enough for each of its characters. -/
structure ReadsItem (s : List Char) (node : Node) : Prop where
  nonempty : s ≠ []
  whole : Whole s
  read : ∀ {fuel : Nat} {top : Bool} {g : Groups} {items : Items} {p : Nat} {rest : List Char},
    Whole rest → s.length ≤ fuel → ∃ left, fuel ≤ left ∧
      sequence (fuel + 2) top .none g items ⟨p, s ++ rest⟩
        = sequence left top .none g ((node, .plain) :: items) ⟨p + s.length, rest⟩

theorem ReadsAs.item {test : CharTest} (h : ReadsAs s test) : ReadsItem s (.char test) where
  nonempty := h.nonempty
  whole := h.whole
  read := fun hr _ => ⟨_, Nat.le_succ _, h.read hr⟩

/-- A group of alternatives that keeps nothing is one item. -/
theorem readsItem_choice {pieces : List (List (List Char))} {tests : List (List CharTest)}
    (h : List.Forall₂ (List.Forall₂ ReadsAs) pieces tests) :
    ReadsItem ('(' :: '?' :: ':' :: (barred pieces ++ [')'])) (choiceOf tests) where
  nonempty := by simp
  whole := whole_cons (by decide)
  read := by
    intro fuel top g items p rest hr enough
    simp only [List.length_cons, List.length_append, List.length_nil] at enough
    have closed : Whole (')' :: rest) := whole_cons (by decide)
    have closes : ∀ start q, closing start ⟨q, ')' :: rest⟩ = .ok ⟨q + 1, rest⟩ := by
      intro start q
      simp [closing, accept_seen (show ')' ≠ '\\' by decide) hr, pure_eq_ok]
    have modes : Modes.none.within [] [] = .none := rfl
    have body : alternatives fuel false .none g ⟨p + 1 + 2, barred pieces ++ ')' :: rest⟩ = _ :=
      alternatives_choice h closed (by omega)
    have position : p + 1 + 2 + (barred pieces).length + 1
        = p + ((barred pieces).length + (0 + 1) + 1 + 1 + 1) := by omega
    refine ⟨fuel, Nat.le_refl _, ?_⟩
    simp only [List.cons_append, List.append_assoc, List.nil_append, List.length_cons,
      List.length_append, List.length_nil]
    rw [sequence_open (whole_cons (by decide)), bracket, opening_scoped (whole_barred h closed)]
    simp only [ok_bind, modes, body, closes, position]

/-- As a pattern a text that is read as one item is that item alone. -/
theorem ReadsItem.parse {node : Node} (h : ReadsItem s node)
    (sound : node.defect? false = none) : Pattern.parse s = .ok ⟨node, 0, []⟩ := by
  obtain ⟨left, -, read⟩ := @h.read (4 * s.length + 1) true .start [] 0 [] whole_nil (by omega)
  have stop : (⟨0 + s.length, []⟩ : Reader).accept '|' = .ok (false, ⟨0 + s.length, []⟩) :=
    accept_unseen (by simp)
  rw [List.append_nil] at read
  refine parse_eq_ok_iff.mpr ⟨⟨node, .none, .start, ⟨0 + s.length, []⟩⟩, h.whole, ?_, ?_, rfl⟩
  · rw [alternatives, read, sequence_end, ok_bind, stop]
    rfl
  · exact ⟨rfl, rfl, rfl, sound⟩

/-! ## Texts that are read item by item -/

/-- Some items without a repeat, the latest first. -/
def plainItems (nodes : List Node) : Items := (nodes.map fun node => (node, .plain)).reverse

theorem plainItems_cons (node : Node) (nodes : List Node) :
    plainItems (node :: nodes) = plainItems nodes ++ [(node, .plain)] := by simp [plainItems]

theorem plainItems_char (tests : List CharTest) :
    plainItems (tests.map .char) = itemsOf tests := by
  rw [plainItems, List.map_map]
  rfl

theorem forall₂_item {pieces : List (List Char)} {tests : List CharTest}
    (h : List.Forall₂ ReadsAs pieces tests) :
    List.Forall₂ ReadsItem pieces (tests.map .char) :=
  List.forall₂_map_right_iff.mpr (h.imp fun _ _ => ReadsAs.item)

section
variable {pieces : List (List Char)} {nodes : List Node}

theorem whole_items (h : List.Forall₂ ReadsItem pieces nodes) (hr : Whole rest) :
    Whole (pieces.flatten ++ rest) := by
  cases h with
  | nil => exact hr
  | cons first _ =>
    rw [List.flatten_cons, List.append_assoc]
    exact first.whole.append first.nonempty _

theorem length_le_items (h : List.Forall₂ ReadsItem pieces nodes) :
    pieces.length ≤ pieces.flatten.length := by
  induction h with
  | nil => simp
  | cons first _ ih =>
    have one := List.length_pos_iff.mpr first.nonempty
    rw [List.length_cons, List.flatten_cons, List.length_append]
    omega

/-- Texts that are items are read one after the other, each in two steps besides those within. -/
theorem sequence_items (h : List.Forall₂ ReadsItem pieces nodes) {top : Bool} {items : Items}
    (hr : Whole rest) (enough : pieces.flatten.length ≤ fuel) : ∃ left, fuel ≤ left ∧
      sequence (fuel + 2 * pieces.length) top .none g items ⟨p, pieces.flatten ++ rest⟩
        = sequence left top .none g (plainItems nodes ++ items)
            ⟨p + pieces.flatten.length, rest⟩ := by
  induction h generalizing fuel items p with
  | nil => exact ⟨fuel, Nat.le_refl _, by simp [plainItems]⟩
  | @cons piece node pieces nodes first more ih =>
    rw [List.flatten_cons, List.length_append] at enough
    obtain ⟨mid, hmid, here⟩ := @first.read (fuel + 2 * pieces.length) top g items p
      (pieces.flatten ++ rest) (whole_items more hr) (by omega)
    obtain ⟨spare, rfl⟩ : ∃ spare, mid = spare + 2 * pieces.length :=
      ⟨mid - 2 * pieces.length, by omega⟩
    obtain ⟨left, hleft, there⟩ := @ih spare (p + piece.length) ((node, .plain) :: items) (by omega)
    refine ⟨left, by omega, ?_⟩
    rw [List.flatten_cons, List.append_assoc, List.length_cons, Nat.mul_succ, ← Nat.add_assoc, here,
      there, plainItems_cons, List.append_assoc, List.singleton_append, List.length_append,
      Nat.add_assoc]

/-- The only alternative of a group is the sequence of its items. -/
theorem alternatives_items (h : List.Forall₂ ReadsItem pieces nodes) (hr : Whole (')' :: rest))
    (enough : 3 * pieces.flatten.length < fuel) :
    alternatives fuel false .none g ⟨p, pieces.flatten ++ ')' :: rest⟩
      = .ok ⟨joinItems (plainItems nodes), .none, g, ⟨p + pieces.flatten.length, ')' :: rest⟩⟩ := by
  have short := length_le_items h
  obtain ⟨spare, rfl⟩ : ∃ spare, fuel = spare + 2 * pieces.length + 1 :=
    ⟨fuel - 2 * pieces.length - 1, by omega⟩
  obtain ⟨left, -, read⟩ := @sequence_items spare p g _ pieces nodes h false [] hr (by omega)
  have no_bar : (⟨p + pieces.flatten.length, ')' :: rest⟩ : Reader).accept '|'
      = .ok (false, ⟨p + pieces.flatten.length, ')' :: rest⟩) :=
    accept_unseen (by rw [next_plain (by decide)]; decide)
  rw [alternatives, read, sequence_bracket, List.append_nil]
  simp only [ok_bind, no_bar, pure_eq_ok, Bool.false_eq_true, ↓reduceIte]

theorem defect?_plainItems {noRepeats : Bool}
    (sound : ∀ node ∈ nodes, node.defect? noRepeats = none) :
    (joinItems (plainItems nodes)).defect? noRepeats = none := by
  refine defect?_joinItems_iff.mpr fun item hi => ?_
  simp only [plainItems, List.mem_reverse, List.mem_map] at hi
  obtain ⟨node, hn, rfl⟩ := hi
  exact sound node hn

end

theorem defect?_choiceOf (noRepeats : Bool) (alternatives : List (List CharTest)) :
    (choiceOf alternatives).defect? noRepeats = none := by
  have each (tests : List CharTest) : (joinItems (itemsOf tests)).defect? noRepeats = none :=
    defect?_joinItems_iff.mpr (defect?_itemsOf noRepeats tests)
  induction alternatives with
  | nil => rfl
  | cons tests more ih =>
    cases more with
    | nil => exact each tests
    | cons next more => rw [choiceOf, Node.defect?, each, ih, Option.none_or]

/-! ## Trying alternatives -/

/-- Alternatives are tried in order: the first that fits and that can be gone on behind. -/
theorem run_choiceOf {alternatives : List (List CharTest)} (nonempty : alternatives ≠ [])
    (k : Continuation) (p : Nat) (m : Marks) :
    (choiceOf alternatives).run s.toArray k p m = alternatives.findSome? fun tests =>
      if fits (tests.map CharTest.holds) (s.drop p) then k (p + tests.length) m else none := by
  induction alternatives with
  | nil => exact absurd rfl nonempty
  | cons tests more ih =>
    rw [List.findSome?_cons, ← runItems_itemsOf]
    cases more with
    | nil =>
      rw [choiceOf, run_joinItems, List.findSome?_nil]
      cases runItems s.toArray (itemsOf tests) k p m <;> rfl
    | cons next more =>
      rw [← ih (List.cons_ne_nil _ _), choiceOf, Node.run, run_joinItems]
      dsimp only
      cases runItems s.toArray (itemsOf tests) k p m <;> rfl

end Neogrammar.Pattern
