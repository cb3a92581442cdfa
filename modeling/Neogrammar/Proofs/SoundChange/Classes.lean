import Mathlib.Data.List.Sort
import Neogrammar.Proofs.Pattern.Alternation
import Neogrammar.Proofs.SoundChange.Spelling

/-!
# Classes of graphemes

The pattern of a category is a set of characters where all its graphemes are single, and else a
group of alternatives, the longer ones first. Both are read back for any graphemes, whatever their
characters mean in a pattern, and both try the graphemes in one order: a class matches where a
grapheme stands, takes the longest one that does, and has the graphemes as its whole matches.
-/
namespace Neogrammar

open Pattern

/-! ## Longer graphemes first -/

namespace Categories

variable {graphemes : List (List Char)}

theorem longestFirst_eq (graphemes : List (List Char)) :
    longestFirst graphemes = graphemes.insertionSort fun s t => t.length ≤ s.length := by
  have insert (s : List Char) (rest : List (List Char)) :
      insertByLength s rest = rest.orderedInsert (fun s t => t.length ≤ s.length) s := by
    induction rest with
    | nil => rfl
    | cons t rest ih =>
      rw [insertByLength, List.orderedInsert_cons, ih]
      by_cases longer : t.length > s.length
      · rw [if_pos longer, if_neg (by omega)]
      · rw [if_neg longer, if_pos (by omega)]
  induction graphemes with
  | nil => rfl
  | cons s rest ih => rw [longestFirst, insert, ih, List.insertionSort_cons]

theorem mem_longestFirst {s : List Char} : s ∈ longestFirst graphemes ↔ s ∈ graphemes := by
  rw [longestFirst_eq, List.mem_insertionSort]

theorem pairwise_longestFirst (graphemes : List (List Char)) :
    (longestFirst graphemes).Pairwise fun s t => t.length ≤ s.length := by
  rw [longestFirst_eq]
  exact List.pairwise_insertionSort _ _

/-- Graphemes of one length keep their order. -/
theorem longestFirst_single (single : ∀ s ∈ graphemes, s.length = 1) :
    longestFirst graphemes = graphemes := by
  rw [longestFirst_eq]
  refine List.Pairwise.insertionSort_eq (List.pairwise_of_forall_mem_list ?_)
  intro s hs t ht
  rw [single s hs, single t ht]

/-! ## Reading a class -/

/-- What the pattern of graphemes is read as. -/
def classNode (graphemes : List (List Char)) : Node :=
  if graphemes.all (·.length == 1) then .char (oneOf graphemes.flatten)
  else choiceOf ((longestFirst graphemes).map (·.map exactly))

theorem readsAs_letters (s : List Char) :
    List.Forall₂ ReadsAs (s.map fun c => escape [c]) (s.map exactly) :=
  forall₂_map fun c _ => readsAs_escape c

theorem flatMap_escape (graphemes : List (List Char)) :
    graphemes.flatMap escape = escape graphemes.flatten := by
  induction graphemes with
  | nil => rfl
  | cons s graphemes ih =>
    rw [List.flatMap_cons, ih, List.flatten_cons, escape, escape, escape, List.flatMap_append]

theorem readsItem_anyOf (nonempty : graphemes ≠ []) :
    ReadsItem (anyOf graphemes) (classNode graphemes) := by
  rw [anyOf, classNode]
  by_cases single : (graphemes.all (·.length == 1)) = true
  · rw [if_pos single, if_pos single]
    have letters : graphemes.flatten ≠ [] := by
      obtain ⟨s, more, rfl⟩ := List.exists_cons_of_ne_nil nonempty
      rw [List.all_cons, Bool.and_eq_true] at single
      have one : s ≠ [] := by
        rintro rfl
        cases single.1
      simp [one]
    rw [flatMap_escape]
    exact (readsAs_set letters).item
  · rw [if_neg single, if_neg single]
    have written : List.intercalate ['|'] ((longestFirst graphemes).map escape)
        = barred ((longestFirst graphemes).map fun s => s.map fun c => escape [c]) := by
      rw [barred, List.map_map]
      refine congrArg _ (List.map_congr_left fun s _ => ?_)
      simp [escape, List.flatMap_def]
    rw [written]
    exact readsItem_choice (forall₂_map fun s _ => readsAs_letters s)

theorem defect?_classNode (noRepeats : Bool) (graphemes : List (List Char)) :
    (classNode graphemes).defect? noRepeats = none := by
  rw [classNode]
  split
  · rfl
  · exact defect?_choiceOf noRepeats _

/-! ## Running a class -/

theorem fits_exactly (g s : List Char) :
    fits ((g.map exactly).map CharTest.holds) s = g.isPrefixOf s := by
  induction g generalizing s with
  | nil => simp
  | cons c g ih =>
    cases s with
    | nil => rfl
    | cons d s =>
      rw [List.map_cons, List.map_cons, fits_cons_cons, ih, holds_exactly, Bool.beq_comm]
      rfl

/-- A set tries single graphemes one by one. -/
theorem run_oneOf (single : ∀ g ∈ graphemes, g.length = 1) {s : List Char} (k : Continuation)
    (p : Nat) (m : Marks) :
    (Node.char (oneOf graphemes.flatten)).run s.toArray k p m = graphemes.findSome? fun g =>
      if g.isPrefixOf (s.drop p) then k (p + g.length) m else none := by
  have here : s.toArray[p]? = (s.drop p)[0]? := by simp
  simp only [Node.run, here, holds_oneOf]
  induction graphemes with
  | nil => cases s.drop p <;> simp
  | cons g graphemes ih =>
    rw [List.forall_mem_cons] at single
    obtain ⟨c, rfl⟩ := List.length_eq_one_iff.mp single.1
    rw [List.findSome?_cons, ← ih single.2]
    cases hd : s.drop p with
    | nil => simp
    | cons d rest =>
      by_cases same : c = d
      · subst same
        simp only [List.flatten_cons, List.singleton_append, List.contains_cons, beq_self_eq_true,
          Bool.true_or, List.getElem?_cons_zero, List.isPrefixOf, Bool.true_and, ↓reduceIte,
          List.length_singleton]
        -- behind a grapheme that stands here the same one could only be tried again
        cases k (p + 1) m <;> simp
      · simp [same, Ne.symm same]

/-- A class tries its graphemes, the longer ones first. -/
theorem run_classNode (nonempty : graphemes ≠ []) {s : List Char} (k : Continuation) (p : Nat)
    (m : Marks) :
    (classNode graphemes).run s.toArray k p m = (longestFirst graphemes).findSome? fun g =>
      if g.isPrefixOf (s.drop p) then k (p + g.length) m else none := by
  rw [classNode]
  by_cases single : (graphemes.all (·.length == 1)) = true
  · have one : ∀ g ∈ graphemes, g.length = 1 := by simpa using single
    rw [if_pos single, longestFirst_single one, run_oneOf one]
  · obtain ⟨g, hg⟩ := List.exists_mem_of_ne_nil _ nonempty
    have tried : (longestFirst graphemes).map (·.map exactly) ≠ [] :=
      List.ne_nil_of_mem (List.mem_map_of_mem (mem_longestFirst.mpr hg))
    rw [if_neg single, run_choiceOf tried, List.findSome?_map]
    simp only [Function.comp_def, fits_exactly, List.length_map]

end Categories

/-! ## What a class matches -/

/-- Whether a pattern matches a text from its beginning to its end. -/
def Pattern.Compiled.matchesWhole (c : Compiled) (text : List Char) : Bool :=
  (c.root.run text.toArray (fun q m => if q = text.length then some (q, m) else none) 0
    (.none c.groups)).isSome

/-- A pattern matches some words and nothing else. -/
structure Pattern.Compiled.MatchesWords (c : Compiled) (words : List (List Char)) : Prop where
  matches_iff : ∀ (text : List Char) (p : Nat), (c.matchAt? text.toArray false p).isSome = true ↔
    ∃ w ∈ words, w <+: text.drop p
  /-- Of the words that stand at a place the longest one is taken. -/
  longest : ∀ (text : List Char) (p q : Nat) (m : Marks),
    c.matchAt? text.toArray false p = some (q, m) →
    ∃ w ∈ words, w <+: text.drop p ∧ q = p + w.length
      ∧ ∀ v ∈ words, v <+: text.drop p → v.length ≤ w.length
  whole_iff : ∀ text : List Char, c.matchesWhole text = true ↔ text ∈ words
  nonempty : ∀ (text : List Char) (p q : Nat) (m : Marks),
    c.matchAt? text.toArray false p = some (q, m) → p < q

namespace Categories

variable {graphemes : List (List Char)} {t : Categories}

theorem matchAt?_class (nonempty : graphemes ≠ []) (text : List Char) (p : Nat) :
    (Compiled.mk (classNode graphemes) 0 []).matchAt? text.toArray false p
      = (longestFirst graphemes).findSome? fun g =>
        if g.isPrefixOf (text.drop p) then some (p + g.length, .none 0) else none := by
  rw [Compiled.matchAt?, run_classNode nonempty]
  rfl

theorem matchesWords_class (nonempty : graphemes ≠ []) (filled : ∀ g ∈ graphemes, g ≠ []) :
    (Compiled.mk (classNode graphemes) 0 []).MatchesWords graphemes := by
  have longest : ∀ (text : List Char) (p q : Nat) (m : Marks),
      (Compiled.mk (classNode graphemes) 0 []).matchAt? text.toArray false p = some (q, m) →
        ∃ w ∈ graphemes, w <+: text.drop p ∧ q = p + w.length
          ∧ ∀ v ∈ graphemes, v <+: text.drop p → v.length ≤ w.length := by
    intro text p q m found
    rw [matchAt?_class nonempty, List.findSome?_eq_some_iff] at found
    obtain ⟨before, w, after, order, here, missed⟩ := found
    obtain ⟨stands, same⟩ := Option.ite_none_right_eq_some.mp here
    cases same
    refine ⟨w, ?_, List.isPrefixOf_iff_prefix.mp stands, rfl, fun v hv standing => ?_⟩
    · exact mem_longestFirst.mp (order ▸ by simp)
    have sorted := pairwise_longestFirst graphemes
    rw [order, List.pairwise_append, List.pairwise_cons] at sorted
    -- a word that was tried before would have been taken
    rcases List.mem_append.mp (order ▸ mem_longestFirst.mpr hv) with earlier | later
    · have passed := missed v earlier
      rw [if_pos (List.isPrefixOf_iff_prefix.mpr standing)] at passed
      cases passed
    · rcases List.mem_cons.mp later with rfl | later
      · exact le_rfl
      · exact sorted.2.1.1 v later
  refine ⟨fun text p => ?_, longest, fun text => ?_, fun text p q m found => ?_⟩
  · rw [matchAt?_class nonempty, List.findSome?_isSome_iff]
    simp [mem_longestFirst]
  · rw [Compiled.matchesWhole, run_classNode nonempty, List.findSome?_isSome_iff]
    constructor
    · rintro ⟨w, hw, whole⟩
      simp only [List.drop_zero, List.isPrefixOf_iff_prefix, Nat.zero_add] at whole
      split_ifs at whole with stands full
      · exact stands.eq_of_length full ▸ mem_longestFirst.mp hw
      · cases whole
      · cases whole
    · intro member
      exact ⟨text, mem_longestFirst.mpr member, by simp⟩
  · obtain ⟨w, hw, -, rfl, -⟩ := longest text p q m found
    have := List.length_pos_iff.mpr (filled w hw)
    omega

/-- The pattern of a category whose graphemes are texts is valid and matches its graphemes. -/
theorem classAt_matches (built : t.Built fun _ => True) {key : Char} {graphemes : List String}
    (found : t.find? key = some (graphemes.map .text)) :
    ∃ pattern c, t.classAt (.text key.toString) = .ok pattern ∧ Pattern.parse pattern = .ok c
      ∧ c.MatchesWords (graphemes.map String.toList) := by
  have member := mem_of_find? found
  have listed : graphemes ≠ [] := by
    rintro rfl
    exact built.storable.filled _ member rfl
  have filled : ∀ g ∈ graphemes.map String.toList, g ≠ [] := by
    intro g hg
    obtain ⟨s, hs, rfl⟩ := List.mem_map.mp hg
    have truthy := (built.storable.graphemes _ member _ (List.mem_map_of_mem hs)).1
    simpa [Datum.truthy] using truthy
  have nonempty : graphemes.map String.toList ≠ [] := by simpa using listed
  have texts : texts? (graphemes.map .text) = some (graphemes.map String.toList) := by
    rw [texts?_eq (by simp [Datum.isText])]
    simp [textsOf, List.filterMap_map, Datum.text?]
  have asked : t.get? (.text key.toString) = some (graphemes.map .text) := by
    simp [get?, keyOf?, found]
  refine ⟨_, _, ?_, (readsItem_anyOf nonempty).parse (defect?_classNode false _),
    matchesWords_class nonempty filled⟩
  simp only [classAt, asked, classOf, texts]
  rfl

/-- A category of marks and of beginnings of each other, one of them twice. -/
def markedTable : Categories :=
  ⟨[('M', ["t", "^-", "]", "\\", "ts", "|", "\n", "t"].map .text)]⟩

theorem classAt_matches_marks : ∃ pattern c,
    markedTable.classAt (.text "M") = .ok pattern ∧ Pattern.parse pattern = .ok c
      ∧ (∃ m, c.matchAt? ['a', 't', 's', 's'].toArray false 1 = some (3, m))
      ∧ c.matchesWhole ['^', '-'] = true ∧ c.matchesWhole ['^'] = false := by
  have added : Categories.empty.add (.text "M")
      (.list (["t", "^-", "]", "\\", "ts", "|", "\n", "t"].map .text)) = .ok markedTable := rfl
  obtain ⟨pattern, c, asked, parsed, words⟩ :=
    classAt_matches (.add .empty (fun _ _ _ _ => trivial) added)
      (show markedTable.find? 'M' = some _ from rfl)
  refine ⟨pattern, c, asked, parsed, ?_, (words.whole_iff _).mpr (by decide), ?_⟩
  · obtain ⟨⟨q, m⟩, found⟩ := Option.isSome_iff_exists.mp
      ((words.matches_iff ['a', 't', 's', 's'] 1).mpr ⟨['t'], by decide, by decide⟩)
    obtain ⟨w, hw, -, rfl, longest⟩ := words.longest _ _ _ _ found
    have atLeast := longest ['t', 's'] (by decide) (by decide)
    have atMost : ∀ w ∈ ["t", "^-", "]", "\\", "ts", "|", "\n", "t"].map String.toList,
        w.length ≤ 2 := by decide
    have two : w.length = 2 := le_antisymm (atMost w hw) atLeast
    rw [two] at found
    exact ⟨m, found⟩
  · exact Bool.eq_false_iff.mpr fun whole => absurd ((words.whole_iff _).mp whole) (by decide)

end Categories
end Neogrammar
