import Neogrammar.Proofs.Fixpoint
import Neogrammar.Proofs.Pattern.Occurrences
import Neogrammar.Proofs.SoundChange.Classes
import Neogrammar.Proofs.SoundChange.Compile

/-!
# Sound changes that take out

A sound change without a replacement takes characters out of a text and leaves the others in their
order. So each pass that changes the text makes it shorter: no text of the run is too long, and the
run comes to rest after at most as many passes as there were characters, one more showing it.
-/
namespace Neogrammar

/-! ## Runs that take out -/

namespace Substitution

/-- A pass leaves some characters of a text, in their order. -/
def Erases (s : Substitution) : Prop := ∀ text, (s.applyOnce text).toList.Sublist text.toList

variable {s : Substitution} {text : String} {n : Nat}

theorem Erases.after_sublist (erases : s.Erases) (text : String) (n : Nat) :
    (s.after text n).toList.Sublist text.toList := by
  induction n with
  | zero => exact List.Sublist.refl _
  | succ n ih =>
    rw [after_succ]
    exact (erases _).trans ih

theorem Erases.length_lt (erases : s.Erases) (moves : s.applyOnce text ≠ text) :
    (s.applyOnce text).length < text.length := by
  rw [← String.length_toList, ← String.length_toList]
  refine Nat.lt_of_le_of_ne (erases text).length_le fun same => moves ?_
  exact String.toList_inj.mp ((erases text).eq_of_length same)

/-- Every pass that changes the text takes at least one character out. -/
theorem Erases.length_after_add (erases : s.Erases) (moves : ∀ k < n, ¬s.Rests text k) :
    (s.after text n).length + n ≤ text.length := by
  induction n with
  | zero => exact Nat.le_refl _
  | succ n ih =>
    have before := ih fun k hk => moves k (Nat.lt_succ_of_lt hk)
    have moved : s.applyOnce (s.after text n) ≠ s.after text n := by
      rw [← after_succ]
      exact moves n (Nat.lt_succ_self n)
    have shorter := erases.length_lt moved
    rw [after_succ]
    omega

/-- A run that takes out returns, if it is granted more passes than there are characters. -/
theorem Erases.apply_returns (erases : s.Erases)
    (passes : (text.length : Int) < s.limits.maxIterations) (margin : 0 ≤ s.limits.growthMargin) :
    ∃ r, s.apply text = .ok r ∧ r.toList.Sublist text.toList := by
  obtain ⟨o, h⟩ := s.exists_outcome text
  rw [h.apply_eq]
  cases h with
  | settled => exact ⟨_, rfl, erases.after_sublist text _⟩
  | @outgrown j first =>
    have long := first.1.2.2.2
    have short := (erases.after_sublist text j).length_le
    rw [String.length_toList, String.length_toList] at short
    have bound := Limits.le_maxLength margin text.length
    omega
  | spent moves =>
    have fewer := erases.length_after_add (n := text.length + 1) fun k hk => moves k (by omega)
    omega

end Substitution

/-! ## Parts that keep the marks -/

namespace Pattern

/-- A part of a pattern that goes on from no earlier place, with the marks as they were. -/
def KeepsMarks (body : Continuation → Continuation) : Prop :=
  ∀ {k p m found}, body k p m = some found → ∃ q, p ≤ q ∧ k q m = some found

theorem keepsMarks_char (text : Array Char) (test : CharTest) :
    KeepsMarks ((Node.char test).run text) := by
  intro k p m found h
  simp only [Node.run] at h
  split at h
  · split at h
    · exact ⟨p + 1, Nat.le_succ p, h⟩
    · cases h
  · cases h

/-- Items that keep the marks keep them one after the other. -/
theorem keepsMarks_items (text : Array Char) {nodes : List Node}
    (keeps : ∀ node ∈ nodes, KeepsMarks (node.run text)) :
    KeepsMarks (runItems text (plainItems nodes)) := by
  intro k p m found h
  induction nodes generalizing p with
  | nil => exact ⟨p, Nat.le_refl p, h⟩
  | cons node nodes ih =>
    rw [List.forall_mem_cons] at keeps
    rw [plainItems_cons, runItems_append, runItems_cons, runItems_nil] at h
    obtain ⟨x, le, h⟩ := keeps.1 h
    obtain ⟨q, le', h⟩ := ih keeps.2 h
    exact ⟨q, Nat.le_trans le le', h⟩

end Pattern

/-! ## Matches between two groups -/

open Pattern

namespace SoundChange

section
variable {s : List Char} {b t a : List Node} {p q : Nat} {m : Marks} {nonempty : Bool}

/-- A match of parts that keep the marks is those parts, the outer two of them marked. -/
theorem matchAt?_around (keeps : ∀ node ∈ b ++ t ++ a, KeepsMarks (node.run s.toArray))
    (found : (aroundOf b t a).matchAt? s.toArray nonempty p = some (q, m)) :
    ∃ i j l, q = p + i + j + l ∧ m = unitMarks p i j l := by
  simp only [List.forall_mem_append] at keeps
  simp only [Compiled.matchAt?, aroundOf, aroundNode, run_joinItems, runItems_cons, runItems_append,
    runItems_nil, Node.run] at found
  obtain ⟨x, first, found⟩ := keepsMarks_items _ keeps.1.1 found
  obtain ⟨y, second, found⟩ := keepsMarks_items _ keeps.1.2 found
  obtain ⟨z, third, found⟩ := keepsMarks_items _ keeps.2 found
  obtain ⟨i, rfl⟩ := Nat.exists_eq_add_of_le first
  obtain ⟨j, rfl⟩ := Nat.exists_eq_add_of_le second
  obtain ⟨l, rfl⟩ := Nat.exists_eq_add_of_le third
  split at found
  · cases found
  · cases found
    exact ⟨i, j, l, rfl, rfl⟩

/-- Without a replacement the texts of both groups are left over from a match. -/
theorem render_erased (text : Array Char) (p i j l : Nat) :
    (unitPieces []).render text p (p + i + j + l) (unitMarks p i j l)
      = stretch text p (p + i) ++ stretch text (p + i + j) (p + i + j + l) := by
  rw [show unitPieces [] = aroundPieces 1 2 [] from rfl, render_aroundPieces, List.append_nil]
  simp only [groupText, span?_unitMarks_before, span?_unitMarks_after, Nat.one_ne_zero,
    show (2 : Nat) ≠ 0 by decide, ↓reduceIte]

theorem sublist_erased (text : Array Char) (p i j l : Nat) :
    ((unitPieces []).render text p (p + i + j + l) (unitMarks p i j l)).Sublist
      (stretch text p (p + i + j + l)) := by
  rw [render_erased, ← stretch_append (show p ≤ p + i + j by omega) (Nat.le_add_right _ l),
    ← stretch_append (Nat.le_add_right p i) (Nat.le_add_right _ j)]
  exact (List.sublist_append_left _ _).append (List.Sublist.refl _)

/-- A substitution that puts nothing between its groups takes out what stands between them. -/
theorem erases_around {sub : Substitution} (compiled : sub.compiled = aroundOf b t a)
    (template : sub.template = unitPieces [])
    (keeps : ∀ text : List Char, ∀ node ∈ b ++ t ++ a, KeepsMarks (node.run text.toArray)) :
    sub.Erases := by
  intro text
  obtain ⟨os, occurs, -⟩ := sub.compiled.exists_unique_occurs text.toList.toArray
  have left : ∀ (o : Occurrence) (nonempty : Bool),
      sub.compiled.matchAt? text.toList.toArray nonempty o.start = some (o.stop, o.marks) →
      (sub.template.render text.toList.toArray o.start o.stop o.marks).Sublist
        (stretch text.toList.toArray o.start o.stop) := by
    intro o nonempty found
    rw [compiled] at found
    obtain ⟨i, j, l, stop, marks⟩ := matchAt?_around (keeps _) found
    rw [template, stop, marks]
    exact sublist_erased _ o.start i j l
  have less := occurs.patched_sublist (Nat.zero_le _) left
  rw [stretch_toArray, List.drop_zero, List.size_toArray, Nat.sub_zero, List.take_length] at less
  rwa [Substitution.applyOnce, String.toList_ofList, occurs.replace]

end

end SoundChange

/-! ## Compiled sound changes -/

namespace Categories

variable {t : Categories} {sign : Char}

theorem keepsMarks_classNode {graphemes : List (List Char)} (nonempty : graphemes ≠ [])
    (text : List Char) : KeepsMarks ((classNode graphemes).run text.toArray) := by
  intro k p m found h
  rw [run_classNode nonempty] at h
  obtain ⟨g, -, h⟩ := List.exists_of_findSome?_eq_some h
  exact ⟨p + g.length, Nat.le_add_right _ _, (Option.ite_none_right_eq_some.mp h).2⟩

/-- What the pattern of a sign is read as. -/
def signNode (t : Categories) (sign : Char) : Node :=
  match t.find? sign with
  | none => .char (exactly sign)
  | some graphemes => classNode (textsOf graphemes)

theorem textsOf_ne_nil (textual : t.Textual) (filled : t.Filled) {graphemes : List Datum}
    (found : t.find? sign = some graphemes) : textsOf graphemes ≠ [] := by
  have member := mem_of_find? found
  obtain ⟨g, more, rfl⟩ := List.exists_cons_of_ne_nil (filled _ member)
  obtain ⟨s, rfl⟩ := Datum.isText_iff.mp (textual _ member g (by simp))
  simp [textsOf, Datum.text?]

theorem readsItem_classed (textual : t.Textual) (filled : t.Filled)
    (h : t.has sign = true ∨ isOperator sign = false) :
    ReadsItem (t.classed sign) (t.signNode sign) := by
  rw [classed, signNode]
  cases found : t.find? sign with
  | none => exact (readsAs_plain (by simpa [has, found] using h)).item
  | some graphemes => exact readsItem_anyOf (textsOf_ne_nil textual filled found)

theorem defect?_signNode (noRepeats : Bool) (t : Categories) (sign : Char) :
    (t.signNode sign).defect? noRepeats = none := by
  rw [signNode]
  split
  · rfl
  · exact defect?_classNode noRepeats _

theorem keepsMarks_signNode (textual : t.Textual) (filled : t.Filled) (sign : Char)
    (text : List Char) : KeepsMarks ((t.signNode sign).run text.toArray) := by
  rw [signNode]
  cases found : t.find? sign with
  | none => exact keepsMarks_char _ _
  | some graphemes => exact keepsMarks_classNode (textsOf_ne_nil textual filled found) text

end Categories

namespace SoundChange

variable {t : Categories} {s : SoundChange} {target replacement : String} {before after : List Char}

/-- A substitution for a plain target between plain sides is read back sign by sign, whatever the
graphemes are. -/
theorem substitutionFor_signs (textual : t.Textual) (filled : t.Filled)
    (plain : s.Plain t target replacement before after) (r : List Char) (limits : Limits) :
    ∃ sub, substitutionFor t s (String.ofList before) (String.ofList after)
        (target.toList.flatMap t.classed) r limits = .ok sub
      ∧ sub.compiled = aroundOf (before.map t.signNode) (target.toList.map t.signNode)
          (after.map t.signNode)
      ∧ sub.template = unitPieces r ∧ sub.limits = limits := by
  have items : ∀ cs : List Char, (∀ c ∈ cs, c ∈ before ++ target.toList ++ after) →
      List.Forall₂ ReadsItem (cs.map t.classed) (cs.map t.signNode) :=
    fun cs hcs => forall₂_map fun c hc =>
      Categories.readsItem_classed textual filled (plain.signs c (hcs c hc))
  have sound : ∀ node ∈ before.map t.signNode ++ target.toList.map t.signNode
      ++ after.map t.signNode, node.defect? false = none := by
    rw [← List.map_append, ← List.map_append, List.forall_mem_map]
    exact fun c _ => Categories.defect?_signNode false t c
  have parsed := parse_around (items before fun c hc => by simp [hc])
    (items target.toList fun c hc => by simp [hc]) (items after fun c hc => by simp [hc])
    (defect?_aroundNode sound)
  have read := readTemplate_around (c := aroundOf (before.map t.signNode)
    (target.toList.map t.signNode) (after.map t.signNode)) rfl rfl (Nat.le_succ 1) (Nat.le_refl 2) r
  simp only [← List.flatMap_def] at parsed
  simp only [substitutionFor, Categories.expand_classed textual, String.toList_ofList, ok_bind,
    Substitution.ofTexts, parsed, read]
  exact ⟨_, rfl, rfl, rfl, rfl⟩

/-- A plain sound change without a replacement becomes one substitution that takes out. -/
theorem compile_erasing (textual : t.Textual) (filled : t.Filled)
    (plain : s.Plain t target "" before after) (limits : Limits) :
    ∃ sub, s.compile t limits = .ok [sub] ∧ sub.Erases ∧ sub.limits = limits := by
  obtain ⟨sub, accepted, compiled, template, within⟩ :=
    substitutionFor_signs textual filled plain [] limits
  refine ⟨sub, ?_, erases_around compiled template fun text => ?_, within⟩
  · rw [compile_alone plain.sides plain.targetText plain.replacementText limits rfl,
      Categories.expand_classed textual, ok_bind]
    simp [accepted]
  · rw [← List.map_append, ← List.map_append, List.forall_mem_map]
    exact fun c _ => Categories.keepsMarks_signNode textual filled c text

/-- A sound change without a replacement comes to rest on every text shorter than the count of
passes: what is returned are characters of the text in their order, and stays as it is. -/
theorem compile_erases (built : t.Built fun g => g.isText = true)
    (plain : s.Plain t target "" before after) {limits : Limits}
    (margin : 0 ≤ limits.growthMargin) :
    ∃ sub, s.compile t limits = .ok [sub] ∧ ∀ text : String,
      (text.length : Int) < limits.maxIterations →
      ∃ r : String, Pipeline.run [sub] (.text text) = .ok (.text r)
        ∧ r.toList.Sublist text.toList ∧ sub.applyOnce r = r := by
  obtain ⟨sub, compiled, erases, rfl⟩ :=
    compile_erasing built.textual built.storable.filled plain limits
  refine ⟨sub, compiled, fun text passes => ?_⟩
  obtain ⟨r, returned, less⟩ := erases.apply_returns passes margin
  refine ⟨r, ?_, less, Substitution.applyOnce_of_apply returned⟩
  rw [Pipeline.run, Pipeline.runText, returned, ok_bind]
  rfl

/-- Graphemes of several lengths, one of them a mark in patterns. -/
def digraphs : Categories :=
  ⟨[('V', [.text "a", .text "ee"]), ('C', [.text "ts", .text "."])]⟩

/-- A consonant between vowels is lost. -/
def lenition : SoundChange := ⟨.text "C", .text "", "V_V"⟩

/-- The vowel between two consonants stands in one match at a time, so the second consonant is lost
in the second pass. -/
theorem compile_erases_lenition : ∃ sub, lenition.compile digraphs ⟨8, 1, 0⟩ = .ok [sub]
    ∧ sub.applyOnce "atsee.a" = "aee.a"
    ∧ Pipeline.run [sub] (.text "atsee.a") = .ok (.text "aeea")
    ∧ "aeea".toList.Sublist "atsee.a".toList ∧ sub.applyOnce "aeea" = "aeea" := by
  have built : digraphs.Built fun g => g.isText = true := by
    have vowels : Categories.empty.add (.text "V") (.list [.text "a", .text "ee"])
        = .ok ⟨[('V', [.text "a", .text "ee"])]⟩ := rfl
    have both : Categories.add ⟨[('V', [.text "a", .text "ee"])]⟩ (.text "C")
        (.list [.text "ts", .text "."]) = .ok digraphs := rfl
    refine .add (.add .empty ?_ vowels) ?_ both
    · rintro graphemes h
      cases h
      decide
    · rintro graphemes h
      cases h
      decide
  have signs : (['V', 'C', 'V'].all fun sign => digraphs.has sign) = true := by decide
  have plain : lenition.Plain digraphs "C" "" ['V'] ['V'] :=
    ⟨rfl, rfl, by decide, by decide, fun c hc => .inl (List.all_eq_true.mp signs c hc), by decide⟩
  have facts : (lenition.compile digraphs ⟨8, 1, 0⟩).toOption.map (fun subs =>
      (subs.map (·.applyOnce "atsee.a"), (subs.runText "atsee.a").toOption))
        = some (["aee.a"], some "aeea") := by
    decide +kernel
  obtain ⟨sub, compiled, returns⟩ :=
    compile_erases built plain (show 0 ≤ (⟨8, 1, 0⟩ : Limits).growthMargin by decide)
  obtain ⟨r, ran, less, rests⟩ := returns "atsee.a" (by decide)
  rw [compiled] at facts
  simp only [Except.toOption, Option.map_some, Option.some.injEq, Prod.mk.injEq, List.map_cons,
    List.map_nil, List.cons.injEq, and_true] at facts
  obtain ⟨first, last⟩ := facts
  have same : r = "aeea" := by
    obtain ⟨r', ran', same⟩ := map_eq_ok_iff.mp ran
    cases same
    rw [ran'] at last
    exact Option.some.inj last
  subst same
  exact ⟨sub, compiled, first, ran, less, rests⟩

end SoundChange
end Neogrammar
