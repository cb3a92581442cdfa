import Neogrammar.Proofs.Pattern.Occurrences
import Neogrammar.Proofs.SoundChange.Refused

/-!
# Replacements are literal

The template of a compiled sound change refers to the two groups and holds the replacement between
them with every backslash written twice. It is read back as just that, whatever the replacement
holds, also where a backslash or a digit stands next to a reference. So each match makes way for the
text of the group before, the replacement, and the text of the group after.
-/
namespace Neogrammar.SoundChange

open Pattern

variable {t : Categories} {s : SoundChange} {limits : Limits} {subs : Pipeline}
  {sub : Substitution} {i : Nat} {replacement : List Char}

/-- The replacement at a place is written with the signs of the rule's replacement, in which every
category is spelled as its grapheme there. -/
theorem replacementText_eq_ok (h : replacementText t s i = .ok replacement) :
    ∃ signs, Sign.ofDatum s.replacement = .ok signs
      ∧ replacement = signs.flatMap (t.spelledSign i) := by
  obtain ⟨paired, mentioned, h⟩ := bind_eq_ok_iff.mp h
  split at h
  · rename_i single
    split at h
    · rename_i text literal
      cases h
      rw [literal, Categories.referenced_text] at mentioned
      cases mentioned
      rw [isEmpty_mentioned, Bool.not_eq_true'] at single
      refine ⟨text.toList.map .char, by rw [literal, Sign.ofDatum_text], ?_⟩
      rw [List.flatMap_map]
      exact (Categories.spelled_unmentioned single i).symm
    · cases h
  · exact Categories.resolve_eq_ok h

/-- A substitution that a template was read for has both groups, and puts the replacement between
them. -/
theorem template_of_unit {before target after : List Char} {rule : String}
    (h : Substitution.ofTexts (String.ofList (unitPattern before target after))
      (String.ofList (unitTemplate replacement)) rule limits = .ok sub) :
    ∃ b a, sub.compiled.names.lookup beforeGroup = some b
      ∧ sub.compiled.names.lookup afterGroup = some a
      ∧ sub.template = aroundPieces b a replacement := by
  obtain ⟨parsed, read, -⟩ := Substitution.ofTexts_eq_ok_iff.mp h
  rw [String.toList_ofList] at parsed
  rcases readTemplate_accepted parsed replacement with ⟨-, unread⟩ | ⟨b, a, known, known', around⟩
  · rw [unread] at read
    cases read
  · rw [around] at read
    exact ⟨b, a, known, known', (Except.ok.inj read).symm⟩

/-- Each substitution of a compiled sound change replaces every match of its pattern by the text of
the group before, the replacement with every category spelled as its grapheme at this place, and the
text of the group after. -/
theorem compile_literal (compiled : s.compile t limits = .ok subs) (h : subs[i]? = some sub) :
    ∃ signs b a, Sign.ofDatum s.replacement = .ok signs
      ∧ sub.compiled.names.lookup beforeGroup = some b
      ∧ sub.compiled.names.lookup afterGroup = some a
      ∧ ∀ text : String, (∃! os, sub.compiled.Occurs text.toList.toArray 0 false os)
        ∧ ∀ os, sub.compiled.Occurs text.toList.toArray 0 false os →
          sub.applyOnce text = String.ofList (patched text.toList.toArray
            (fun o => o.group text.toList.toArray b ++ signs.flatMap (t.spelledSign i)
              ++ o.group text.toList.toArray a) 0 os) := by
  obtain ⟨⟨before, after⟩, sides, -⟩ := bind_eq_ok_iff.mp compiled
  obtain ⟨target, replacement, -, literal, substituted⟩ := compile_parts sides compiled h
  obtain ⟨signs, read, rfl⟩ := replacementText_eq_ok literal
  obtain ⟨front, -, substituted⟩ := bind_eq_ok_iff.mp substituted
  obtain ⟨back, -, substituted⟩ := bind_eq_ok_iff.mp substituted
  obtain ⟨b, a, known, known', template⟩ := template_of_unit substituted
  refine ⟨signs, b, a, read, known, known', fun text => ?_⟩
  refine ⟨sub.compiled.exists_unique_occurs _, fun os occurs => ?_⟩
  rw [Substitution.applyOnce, occurs.replace, template]
  simp only [render_aroundPieces, Occurrence.group]

/-- Graphemes that look like parts of a template. -/
def templateMarks : Categories :=
  ⟨[('V', [.text "a", .text "e"]), ('M', [.text "\\", .text "\\g<ctx_after>"])]⟩

/-- A digit and a backslash stand beside what a vowel is paired with. -/
def markRule : SoundChange := ⟨.text "V", .text "1M\\", "x_"⟩

theorem compile_literal_marks : ∃ first second,
    markRule.compile templateMarks .default = .ok [first, second]
      ∧ second.applyOnce "xe" = "x1\\g<ctx_after>\\"
      ∧ ∃ b a, second.compiled.names.lookup beforeGroup = some b
        ∧ second.compiled.names.lookup afterGroup = some a
        ∧ ∀ os, second.compiled.Occurs ['x', 'e'].toArray 0 false os →
          second.applyOnce "xe" = String.ofList (patched ['x', 'e'].toArray
            (fun o => o.group ['x', 'e'].toArray b ++ "1\\g<ctx_after>\\".toList
              ++ o.group ['x', 'e'].toArray a) 0 os) := by
  have facts : (markRule.compile templateMarks .default).toOption.map
      (List.map (·.applyOnce "xe")) = some ["xe", "x1\\g<ctx_after>\\"] := by decide +kernel
  cases compiled : markRule.compile templateMarks .default with
  | error e =>
    rw [compiled] at facts
    cases facts
  | ok subs =>
    rw [compiled] at facts
    simp only [Except.toOption, Option.map_some, Option.some.injEq, List.map_eq_cons_iff,
      List.map_eq_nil_iff] at facts
    obtain ⟨first, _, rfl, -, second, _, rfl, applied, rfl⟩ := facts
    obtain ⟨signs, b, a, read, known, known', replaces⟩ :=
      compile_literal compiled (show [first, second][1]? = some second from rfl)
    cases read
    exact ⟨first, second, rfl, applied, b, a, known, known', (replaces "xe").2⟩

end Neogrammar.SoundChange
