import Mathlib.Data.List.Forall2
import Neogrammar.Proofs.SoundChange.Letters
import Neogrammar.Proofs.SoundChange.Scan
import Neogrammar.Proofs.Text.Cut

/-!
# Compiled sound changes rewrite windows

Over categories of letters, a sound change written with categories and characters that mean nothing
in a pattern is compiled into substitutions that each rewrite a window: the signs before, at and
after the place of the target ask for their characters, and the replacement takes the middle.
-/
namespace Neogrammar

namespace SoundChange

open Pattern

/-- A sound change of texts whose patterns hold categories and characters that mean nothing in a
pattern, but are not all empty. -/
structure Plain (t : Categories) (s : SoundChange) (target replacement : String)
    (before after : List Char) : Prop where
  targetText : s.target = .text target
  replacementText : s.replacement = .text replacement
  environment : s.environment.toList = before ++ marker :: after
  oneMarker : marker ∉ before ∧ marker ∉ after
  signs : ∀ sign ∈ before ++ target.toList ++ after, t.has sign = true ∨ isOperator sign = false
  nonempty : 0 < before.length + target.toList.length + after.length

/-- The window of a sound change at a place of its categories. Where the replacement mentions a
category, a sign of the target asks for the letter at that place. -/
def window (t : Categories) (target replacement before after : List Char) (i : Nat) : Window where
  before := before.map t.admits
  target := target.map (if t.mentionedIn replacement then t.admitsAt i else t.admits)
  after := after.map t.admits
  replacement := replacement.flatMap (t.letterAt i)

variable {t : Categories} {s : SoundChange} {target replacement : String} {before after : List Char}

theorem sidesOf_marker {environment : String} (h : environment.toList = before ++ marker :: after)
    (one : marker ∉ before ∧ marker ∉ after) :
    sidesOf environment = .ok (String.ofList before, String.ofList after) := by
  have left : ∀ c ∈ before, (c == marker) = false :=
    fun c hc => beq_false_of_ne fun he => one.1 (he ▸ hc)
  have right : ∀ c ∈ after, (c == marker) = false :=
    fun c hc => beq_false_of_ne fun he => one.2 (he ▸ hc)
  rw [sidesOf, h, Text.cutAt_append left (by simp), Text.cutAt_none right]

theorem Plain.sides (plain : s.Plain t target replacement before after) :
    sidesOf s.environment = .ok (String.ofList before, String.ofList after) :=
  sidesOf_marker plain.environment plain.oneMarker

/-- Without exactly one marker an environment is refused, and it is refused for nothing else. -/
theorem sidesOf_eq_error_iff {environment : String} {e : Error} :
    sidesOf environment = .error e ↔
      environment.toList.count marker ≠ 1 ∧ e = .environment environment := by
  have length : (Text.cutAt (· == marker) environment.toList).length
      = environment.toList.count marker + 1 := Text.length_cutAt _ _
  unfold sidesOf
  split
  · rename_i two
    rw [two] at length
    have one : environment.toList.count marker = 1 := (Nat.succ.inj length).symm
    simp [one]
  · rename_i other
    have ne : environment.toList.count marker ≠ 1 := by
      intro one
      rw [one] at length
      obtain ⟨before, after, h⟩ := List.length_eq_two.mp length
      exact other before after h
    simp [ne, eq_comm]

/-- An environment has two sides exactly where one marker parts them. -/
theorem sidesOf_eq_ok_iff {environment before after : String} :
    sidesOf environment = .ok (before, after) ↔
      environment.toList = before.toList ++ marker :: after.toList
        ∧ marker ∉ before.toList ∧ marker ∉ after.toList := by
  constructor
  · intro h
    have one : environment.toList.count marker = 1 := by
      by_contra ne
      rw [sidesOf_eq_error_iff.mpr ⟨ne, rfl⟩] at h
      cases h
    have member : marker ∈ environment.toList := List.count_pos_iff.mp (by omega)
    obtain ⟨b, a, parts⟩ := List.append_of_mem member
    rw [parts, List.count_append, List.count_cons_self] at one
    have alone : marker ∉ b ∧ marker ∉ a :=
      ⟨List.count_eq_zero.mp (by omega), List.count_eq_zero.mp (by omega)⟩
    rw [sidesOf_marker parts alone] at h
    cases h
    simpa using ⟨parts, alone⟩
  · rintro ⟨parts, alone⟩
    have sides := sidesOf_marker parts alone
    rwa [String.ofList_toList, String.ofList_toList] at sides

/-- A substitution for a plain target between plain sides rewrites a window. -/
theorem substitutionFor_plain (filled : t.Filled) (lettered : t.Lettered)
    (plain : s.Plain t target replacement before after) {f : Char → List Char}
    {g : Char → CharTest} (h : ∀ c ∈ target.toList, ReadsAs (f c) (g c)) (r : List Char)
    (limits : Limits) :
    ∃ sub, substitutionFor t s (String.ofList before) (String.ofList after)
        (target.toList.map f).flatten r limits = .ok sub
      ∧ ∀ text, sub.applyOnce text = String.ofList (Window.rewrite ⟨before.map t.admits,
          target.toList.map fun c => (g c).holds, after.map t.admits, r⟩ text.toList) := by
  have sides : ∀ cs : List Char, (∀ c ∈ cs, c ∈ before ++ target.toList ++ after) →
      List.Forall₂ ReadsAs (cs.map t.pattern) (cs.map t.test) :=
    fun cs hcs => forall₂_map fun c hc =>
      Categories.readsAs_pattern filled lettered (plain.signs c (hcs c hc))
  obtain ⟨sub, accepted, rewrites⟩ := ofTexts_unit
    (sides before fun c hc => by simp [hc]) (forall₂_map h) (sides after fun c hc => by simp [hc])
    (by simpa using plain.nonempty) r s.text limits
  refine ⟨sub, ?_, ?_⟩
  · simp only [substitutionFor, Categories.expand_text lettered, String.toList_ofList, ok_bind,
      accepted]
  · intro text
    rw [rewrites text, windowOf]
    simp only [List.map_map, Function.comp_def, Categories.holds_test]

/-- A place comes before the length of the shortest category mentioned if each has a grapheme
there. -/
theorem lt_shortest_iff {cs : List Char} (h : t.mentionedIn cs = true) (i : Nat) :
    i < shortest t (t.mentioned [] (cs.map .char)) ↔
      ∀ c ∈ cs, ∀ graphemes, t.find? c = some graphemes → i < graphemes.length := by
  have nonempty : t.mentioned [] (cs.map .char) ≠ [] := by
    rw [Ne, Categories.mentioned_eq_nil_iff, h]
    decide
  obtain ⟨n, hn⟩ : ∃ n, ((t.mentioned [] (cs.map .char)).map
      fun k => ((t.find? k).getD []).length).min? = some n := by
    rw [← Option.isSome_iff_exists, List.isSome_min?_iff]
    simpa using nonempty
  rw [shortest, hn, Option.getD_some, ← Nat.succ_le_iff, List.le_min?_iff hn]
  simp only [List.mem_map, Categories.mem_mentioned, List.not_mem_nil, false_or,
    forall_exists_index, and_imp, Nat.succ_le_iff]
  constructor
  · intro each c hc graphemes found
    have long := each _ c hc (by rw [Categories.has, found]; rfl) rfl
    rwa [found] at long
  · rintro each _ c hc key rfl
    obtain ⟨graphemes, found⟩ := Option.isSome_iff_exists.mp key
    rw [found]
    exact each c hc graphemes found

theorem lt_shortest (lettered : t.Lettered) {cs : List Char} (h : t.mentionedIn cs = true)
    (i : Nat) : i < shortest t (t.mentioned [] (cs.map .char)) ↔ ∀ c ∈ cs, t.HasPlace i c := by
  rw [lt_shortest_iff h]
  refine forall₂_congr fun c _ => ?_
  rw [Categories.HasPlace]
  cases hl : t.letters c with
  | none =>
    rw [Categories.letters_eq_none_iff] at hl
    simp [hl]
  | some ls => simp [Categories.find?_eq_letters lettered hl]

/-- The places that a sound change is compiled at: one where the replacement mentions no category,
and else those that every category on either side has. -/
def IsPlace (t : Categories) (target replacement : List Char) (i : Nat) : Prop :=
  if t.mentionedIn replacement then ∀ sign ∈ target ++ replacement, t.HasPlace i sign else i = 0

instance (t : Categories) (target replacement : List Char) (i : Nat) :
    Decidable (IsPlace t target replacement i) :=
  decidable_of_iff ((if t.mentionedIn replacement
    then (target ++ replacement).all fun sign => decide (t.HasPlace i sign)
    else decide (i = 0)) = true) (by
      cases h : t.mentionedIn replacement <;> simp [IsPlace, h, or_imp, forall_and])

theorem isEmpty_mentioned (t : Categories) (cs : List Char) :
    (t.mentioned [] (cs.map .char)).isEmpty = !t.mentionedIn cs := by
  cases h : t.mentionedIn cs with
  | false => simp [Categories.mentioned_eq_nil_iff.mpr h]
  | true =>
    rw [Bool.not_true, List.isEmpty_eq_false_iff, Ne, Categories.mentioned_eq_nil_iff, h]
    decide

/-- The length of the shortest category that a target or a replacement mentions. -/
def width (t : Categories) (target replacement : List Char) : Nat :=
  min (shortest t (t.mentioned [] (target.map .char)))
    (shortest t (t.mentioned [] (replacement.map .char)))

/-! ## The ends of compiling -/

section Sides

variable {front back : String} (sides : sidesOf s.environment = .ok (front, back))
  (ht : s.target = .text target) (hr : s.replacement = .text replacement) (limits : Limits)

include sides ht hr

theorem compile_alone (alone : t.mentionedIn replacement.toList = false) :
    s.compile t limits = t.expand (.text target) >>= fun pattern =>
      (fun sub => [sub]) <$> substitutionFor t s front back pattern replacement.toList limits := by
  simp only [compile, sides, ok_bind, ht, hr, Categories.referenced_text, isEmpty_mentioned, alone,
    Bool.not_false, ↓reduceIte]
  rfl

/-- A paired sound change without a category in its target is refused. -/
theorem compile_unpaired (paired : t.mentionedIn replacement.toList = true)
    (bare : t.mentionedIn target.toList = false) :
    s.compile t limits = .error (.target s.target) := by
  simp only [compile, sides, ok_bind, ht, hr, Categories.referenced_text, isEmpty_mentioned, paired,
    bare, Bool.not_true, Bool.not_false, Bool.false_eq_true, ↓reduceIte]

theorem compile_places (paired : t.mentionedIn replacement.toList = true)
    (bound : t.mentionedIn target.toList = true) :
    s.compile t limits = (List.range (width t target.toList replacement.toList)).mapM
      (compilePair t s front back limits) := by
  simp only [compile, sides, ok_bind, ht, hr, Categories.referenced_text, isEmpty_mentioned, paired,
    bound, Bool.not_true, Bool.false_eq_true, ↓reduceIte, width]

end Sides

/-! ## Plain sound changes -/

theorem compile_refused (plain : s.Plain t target replacement before after) (limits : Limits)
    (paired : t.mentionedIn replacement.toList = true)
    (h : t.mentionedIn target.toList = false) :
    s.compile t limits = .error (.target s.target) :=
  compile_unpaired plain.sides plain.targetText plain.replacementText limits paired h

/-- A sound change whose replacement mentions no category becomes one substitution. -/
theorem compile_single (filled : t.Filled) (lettered : t.Lettered)
    (plain : s.Plain t target replacement before after) (limits : Limits)
    (single : t.mentionedIn replacement.toList = false) :
    ∃ sub, s.compile t limits = .ok [sub] ∧ ∀ text, sub.applyOnce text
      = String.ofList ((window t target.toList replacement.toList before after 0).rewrite
          text.toList) := by
  have literal := Categories.flatMap_letterAt single 0
  obtain ⟨sub, accepted, rewrites⟩ := substitutionFor_plain filled lettered plain
    (fun c hc => Categories.readsAs_pattern filled lettered (plain.signs c (by simp [hc])))
    replacement.toList limits
  refine ⟨sub, ?_, ?_⟩
  · rw [compile_alone plain.sides plain.targetText plain.replacementText limits single,
      Categories.expand_text lettered, ok_bind, accepted]
    rfl
  · intro text
    rw [rewrites text, window, literal, single]
    simp [Categories.holds_test]

/-- A sound change that mentions categories on both sides becomes one substitution for each place
that all of them have. -/
theorem compile_paired (filled : t.Filled) (lettered : t.Lettered)
    (plain : s.Plain t target replacement before after) (limits : Limits)
    (paired : t.mentionedIn replacement.toList = true)
    (h : t.mentionedIn target.toList = true) :
    ∃ subs, s.compile t limits = .ok subs
      ∧ (∀ i, i < subs.length ↔ ∀ sign ∈ target.toList ++ replacement.toList, t.HasPlace i sign)
      ∧ ∀ i sub, subs[i]? = some sub → ∀ text, sub.applyOnce text
          = String.ofList ((window t target.toList replacement.toList before after i).rewrite
              text.toList) := by
  have places : ∀ i, i < width t target.toList replacement.toList
      ↔ ∀ sign ∈ target.toList ++ replacement.toList, t.HasPlace i sign := by
    intro i
    rw [width, Nat.lt_min, lt_shortest lettered h, lt_shortest lettered paired,
      List.forall_mem_append]
  have each : ∀ i ∈ List.range (width t target.toList replacement.toList),
      ∃ sub, compilePair t s (String.ofList before) (String.ofList after) limits i = .ok sub
        ∧ ∀ text, sub.applyOnce text
          = String.ofList ((window t target.toList replacement.toList before after i).rewrite
              text.toList) := by
    intro i hi
    have place := (places i).mp (List.mem_range.mp hi)
    have target_place : ∀ sign ∈ target.toList, t.HasPlace i sign :=
      fun sign hs => place sign (by simp [hs])
    have replacement_place : ∀ sign ∈ replacement.toList, t.HasPlace i sign :=
      fun sign hs => place sign (by simp [hs])
    obtain ⟨sub, accepted, rewrites⟩ := substitutionFor_plain filled lettered plain
      (fun c hc => Categories.readsAs_patternAt (target_place c hc)
        (plain.signs c (by simp [hc])))
      (replacement.toList.flatMap (t.letterAt i)) limits
    refine ⟨sub, ?_, ?_⟩
    · simp only [compilePair, plain.targetText, plain.replacementText,
        (Categories.resolve_text lettered target_place).1,
        (Categories.resolve_text lettered replacement_place).2, ok_bind, accepted]
    · intro text
      rw [rewrites text, window, paired]
      simp [Categories.holds_testAt]
  obtain ⟨subs, hsubs, length, all⟩ := mapM_returns each
  have compiled :=
    compile_places plain.sides plain.targetText plain.replacementText limits paired h
  refine ⟨subs, compiled.trans hsubs, ?_, ?_⟩
  · intro i
    rw [length, List.length_range, places]
  · intro i sub hsub
    have hi : i < subs.length := List.getElem?_eq_some_iff.mp hsub |>.1
    rw [length, List.length_range] at hi
    exact all i i sub (List.getElem?_range hi) hsub

/-- Over categories of letters, a plain sound change that is not refused for its target is compiled
into one substitution for each place, which rewrites the window of that place. -/
theorem compile_rewrites (filled : t.Filled) (lettered : t.Lettered)
    (plain : s.Plain t target replacement before after) (limits : Limits)
    (valid : s.compile t limits ≠ .error (.target s.target)) :
    ∃ subs, s.compile t limits = .ok subs
      ∧ (∀ i, i < subs.length ↔ IsPlace t target.toList replacement.toList i)
      ∧ ∀ i sub, subs[i]? = some sub → ∀ text, sub.applyOnce text
          = String.ofList ((window t target.toList replacement.toList before after i).rewrite
              text.toList) := by
  cases paired : t.mentionedIn replacement.toList with
  | false =>
    obtain ⟨sub, compiled, rewrites⟩ := compile_single filled lettered plain limits paired
    refine ⟨[sub], compiled, ?_, ?_⟩
    · intro i
      simp [IsPlace, paired]
    · intro i other hi
      obtain ⟨rfl, rfl⟩ : i = 0 ∧ other = sub := by
        cases i with
        | zero => simpa using hi.symm
        | succ i => cases hi
      exact rewrites
  | true =>
    have mentions : t.mentionedIn target.toList = true := by
      by_contra h
      exact valid (compile_refused plain limits paired (Bool.eq_false_iff.mpr h))
    obtain ⟨subs, compiled, length, rewrites⟩ :=
      compile_paired filled lettered plain limits paired mentions
    refine ⟨subs, compiled, ?_, rewrites⟩
    intro i
    rw [length, IsPlace, if_pos paired]

/-- Categories whose letters, and one of whose signs, mean something in a pattern. -/
def specialLetters : Categories :=
  ⟨[('V', [.text "a", .text "^", .text "]"]), ('.', [.text "\\", .text "-"])]⟩

/-- A mark between a dot and a hash is paired with the dot after it. -/
def pairedRule : SoundChange := ⟨.text "V", .text "x.", "._#"⟩

theorem compile_rewrites_special : ∃ subs, pairedRule.compile specialLetters .default = .ok subs
    ∧ subs.length = 2
    ∧ ∀ sub, subs[1]? = some sub → sub.applyOnce "-^#\\^#^#" = "-x-#\\x-#^#" := by
  have signs : (['.', 'V', '#'].all fun sign =>
      specialLetters.has sign || !isOperator sign) = true := by decide
  have plain : pairedRule.Plain specialLetters "V" "x." ['.'] ['#'] :=
    ⟨rfl, rfl, by decide, by decide, by simpa using List.all_eq_true.mp signs, by decide⟩
  have accepted : (pairedRule.compile specialLetters .default).isOk = true := by decide +kernel
  have valid : pairedRule.compile specialLetters .default ≠ .error (.target pairedRule.target) := by
    intro refused
    rw [refused] at accepted
    cases accepted
  obtain ⟨subs, compiled, places, rewrites⟩ :=
    compile_rewrites (by decide) (by decide) plain .default valid
  refine ⟨subs, compiled, ?_, ?_⟩
  · have second := (places 1).mpr (by decide)
    have third := (places 2).not.mpr (by decide)
    omega
  · intro sub h
    rw [rewrites 1 sub h]
    decide +kernel

end SoundChange
end Neogrammar
