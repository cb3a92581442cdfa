import Mathlib.Order.Bounds.Basic
import Neogrammar.Proofs.SoundChange.Limits
import Neogrammar.Proofs.SoundChange.Refused

/-!
# What compiling comes to

Over a table of texts a sound change of texts comes to one of four ends. An environment without its
one marker is refused before anything else is looked at. A replacement without a category gives one
substitution. A replacement with one is refused where the target has none, and else is paired with
it place by place, up to the shortest category on either side, so that no place is missing. Beyond
that only a pattern can fail. The sound changes of a language are compiled one after another.
-/
namespace Neogrammar.SoundChange

variable {t : Categories} {s : SoundChange} {target replacement : String} {limits : Limits}
variable {e : Error} {pattern : List Char}

/-! ## The one marker -/

/-- What stands before the first marker of the environment. -/
def front (s : SoundChange) : List Char := s.environment.toList.takeWhile (· != marker)

/-- What stands after the first marker of the environment. -/
def back (s : SoundChange) : List Char := (s.environment.toList.dropWhile (· != marker)).tail

theorem sidesOf_front (one : s.environment.toList.count marker = 1) :
    sidesOf s.environment = .ok (String.ofList s.front, String.ofList s.back) := by
  cases sides : sidesOf s.environment with
  | error e => exact absurd one (sidesOf_eq_error_iff.mp sides).1
  | ok parts =>
    obtain ⟨before, after⟩ := parts
    obtain ⟨cut, unmarked, -⟩ := sidesOf_eq_ok_iff.mp sides
    have plain : ∀ c ∈ before.toList, (c != marker) = true :=
      fun c hc => bne_iff_ne.mpr fun same => unmarked (same ▸ hc)
    have front : s.front = before.toList := by
      rw [SoundChange.front, cut, List.takeWhile_append_of_pos plain]
      simp
    have back : s.back = after.toList := by
      rw [SoundChange.back, cut, List.dropWhile_append_of_pos plain]
      simp
    rw [front, back, String.ofList_toList, String.ofList_toList]

/-! ## One substitution -/

/-- The pattern around a target, with a class for each category on the sides. -/
def patternAround (t : Categories) (s : SoundChange) (target : List Char) : List Char :=
  unitPattern (s.front.flatMap t.classed) target (s.back.flatMap t.classed)

/-- The substitution of a target pattern by a literal replacement between the sides. -/
def unitBetween (t : Categories) (s : SoundChange) (target replacement : List Char)
    (limits : Limits) : Except Error Substitution :=
  Substitution.ofTexts (String.ofList (s.patternAround t target))
    (String.ofList (unitTemplate replacement)) s.text limits

/-- The substitution at one place, with every category spelled as its grapheme there. -/
def unitAt (t : Categories) (s : SoundChange) (target replacement : String) (limits : Limits)
    (i : Nat) : Except Error Substitution :=
  s.unitBetween t (target.toList.flatMap (t.spelledPattern i))
    (replacement.toList.flatMap (t.spelled i)) limits

theorem substitutionFor_eq (textual : t.Textual) (pattern literal : List Char) (limits : Limits) :
    substitutionFor t s (String.ofList s.front) (String.ofList s.back) pattern literal limits
      = s.unitBetween t pattern literal limits := by
  simp only [substitutionFor, Categories.expand_classed textual, String.toList_ofList, ok_bind,
    unitBetween, patternAround]

theorem compilePair_eq (textual : t.Textual) (ht : s.target = .text target)
    (hr : s.replacement = .text replacement) {i : Nat}
    (place : ∀ sign ∈ target.toList ++ replacement.toList, ∀ graphemes,
      t.find? sign = some graphemes → i < graphemes.length) :
    compilePair t s (String.ofList s.front) (String.ofList s.back) limits i
      = s.unitAt t target replacement limits i := by
  rw [List.forall_mem_append] at place
  simp only [compilePair, ht, hr, (Categories.resolve_spelled textual place.1).1,
    (Categories.resolve_spelled textual place.2).2, ok_bind, substitutionFor_eq textual, unitAt]

theorem unusable_unitBetween (pattern literal : List Char) (limits : Limits) :
    FailsOnly (Unusable s.text (s.patternAround t pattern))
      (s.unitBetween t pattern literal limits) :=
  unusable_ofTexts _ pattern _ literal _ limits

theorem Unusable.isNot (h : Unusable s.text pattern e) :
    (∀ text, e ≠ .environment text) ∧ (∀ d, e ≠ .target d) ∧ e ≠ .noGrapheme := by
  cases h with
  | @refused refusal => cases refusal <;> simp [Error.ofRefusal]
  | group => simp

/-! ## The count of places -/

/-- The lengths of the categories that signs mention. -/
def lengthsOf (t : Categories) (signs : List Char) : Set Nat :=
  {n | ∃ sign ∈ signs, ∃ graphemes, t.find? sign = some graphemes ∧ graphemes.length = n}

section Width

variable {target replacement : List Char}
variable (bound : t.mentionedIn target = true) (paired : t.mentionedIn replacement = true)

include bound paired

theorem lt_width_iff {i : Nat} :
    i < width t target replacement ↔ ∀ sign ∈ target ++ replacement, ∀ graphemes,
      t.find? sign = some graphemes → i < graphemes.length := by
  rw [width, Nat.lt_min, lt_shortest_iff bound, lt_shortest_iff paired, List.forall_mem_append]

theorem isLeast_width :
    IsLeast (lengthsOf t (target ++ replacement)) (width t target replacement) := by
  have below : width t target replacement ∈ lowerBounds (lengthsOf t (target ++ replacement)) := by
    rintro n ⟨sign, hs, graphemes, found, rfl⟩
    by_contra short
    have place := (lt_width_iff bound paired).mp (not_le.mp short) sign hs graphemes found
    exact lt_irrefl _ place
  refine ⟨?_, below⟩
  by_contra other
  -- else every category would have one more place
  refine lt_irrefl _ ((lt_width_iff bound paired).mpr fun sign hs graphemes found => ?_)
  have member : graphemes.length ∈ lengthsOf t (target ++ replacement) :=
    ⟨sign, hs, graphemes, found, rfl⟩
  exact lt_of_le_of_ne (below member) fun same => other (same ▸ member)

theorem width_pos (filled : t.Filled) : 0 < width t target replacement :=
  (lt_width_iff bound paired).mpr fun _ _ _ found =>
    List.length_pos_iff.mpr (filled _ (Categories.mem_of_find? found))

end Width

/-! ## The four ends -/

theorem compile_unmarked (unmarked : s.environment.toList.count marker ≠ 1) :
    s.compile t limits = .error (.environment s.environment) := by
  rw [compile, sidesOf_eq_error_iff.mpr ⟨unmarked, rfl⟩]
  rfl

section Marked

variable (ht : s.target = .text target) (hr : s.replacement = .text replacement)
variable (one : s.environment.toList.count marker = 1)

include ht hr one

theorem compile_alone_unit (textual : t.Textual)
    (alone : t.mentionedIn replacement.toList = false) :
    s.compile t limits = (fun sub => [sub]) <$>
      s.unitBetween t (target.toList.flatMap t.classed) replacement.toList limits := by
  rw [compile_alone (sidesOf_front one) ht hr limits alone, Categories.expand_classed textual,
    ok_bind, substitutionFor_eq textual]

theorem compile_places_unit (textual : t.Textual)
    (paired : t.mentionedIn replacement.toList = true)
    (bound : t.mentionedIn target.toList = true) :
    s.compile t limits = (List.range (width t target.toList replacement.toList)).mapM
      (s.unitAt t target replacement limits) := by
  rw [compile_places (sidesOf_front one) ht hr limits paired bound]
  refine mapM_congr fun i hi => compilePair_eq textual ht hr ?_
  exact (lt_width_iff bound paired).mp (List.mem_range.mp hi)

/-- Beyond the environment and the target only a pattern is at fault. -/
theorem unusable_compile (textual : t.Textual)
    (usable : t.mentionedIn replacement.toList = true → t.mentionedIn target.toList = true) :
    FailsOnly (fun e => ∃ pattern, Unusable s.text (s.patternAround t pattern) e)
      (s.compile t limits) := by
  have unit (pattern literal : List Char) :
      FailsOnly (fun e => ∃ pattern, Unusable s.text (s.patternAround t pattern) e)
        (s.unitBetween t pattern literal limits) :=
    (unusable_unitBetween pattern literal limits).mono fun _ h => ⟨pattern, h⟩
  cases paired : t.mentionedIn replacement.toList with
  | false =>
    rw [compile_alone_unit ht hr one textual paired]
    exact (unit _ _).map
  | true =>
    rw [compile_places_unit ht hr one textual paired (usable paired)]
    exact .mapM fun _ _ => unit _ _

end Marked

/-- Compiled place by place, with each category spelled as its grapheme at the place. -/
structure PlaceByPlace (t : Categories) (s : SoundChange) (target replacement : String)
    (limits : Limits) (width : Nat) : Prop where
  shortest : IsLeast (lengthsOf t (target.toList ++ replacement.toList)) width
  positive : 1 ≤ width
  /-- At each place every category mentioned has a grapheme. -/
  spelled : ∀ i < width, ∀ sign ∈ target.toList ++ replacement.toList, ∀ graphemes,
    t.find? sign = some graphemes → ∃ g, graphemes[i]? = some (.text g)
      ∧ t.spelled i sign = g.toList ∧ t.spelledPattern i sign = Pattern.escape g.toList
  returns : ∀ subs, s.compile t limits = .ok subs ↔
    List.Forall₂ (fun i sub => s.unitAt t target replacement limits i = .ok sub)
      (List.range width) subs
  /-- The first place whose pattern is unusable gives the error. -/
  fails : ∀ e, s.compile t limits = .error e ↔ ∃ i < width,
    s.unitAt t target replacement limits i = .error e
      ∧ ∀ j < i, ∃ sub, s.unitAt t target replacement limits j = .ok sub

/-- What compiling a sound change of texts comes to. -/
structure Outcome (t : Categories) (s : SoundChange) (target replacement : String)
    (limits : Limits) : Prop where
  /-- An environment without its one marker is refused, whatever else is amiss. -/
  environment : ∀ text, s.compile t limits = .error (.environment text) ↔
    s.environment.toList.count marker ≠ 1 ∧ text = s.environment
  /-- A replacement without a category is compiled once. -/
  alone : s.environment.toList.count marker = 1 → t.mentionedIn replacement.toList = false →
    s.compile t limits = (fun sub => [sub]) <$>
      s.unitBetween t (target.toList.flatMap t.classed) replacement.toList limits
  /-- A replacement with one needs a category in the target. -/
  bare : ∀ d, s.compile t limits = .error (.target d) ↔ s.environment.toList.count marker = 1
    ∧ t.mentionedIn replacement.toList = true ∧ t.mentionedIn target.toList = false ∧ d = s.target
  paired : s.environment.toList.count marker = 1 → t.mentionedIn replacement.toList = true →
    t.mentionedIn target.toList = true → ∃ width, PlaceByPlace t s target replacement limits width
  /-- No substitution is refused but for the pattern around its target. -/
  fault : ∀ pattern literal, FailsOnly (Unusable s.text (s.patternAround t pattern))
    (s.unitBetween t pattern literal limits)
  /-- No grapheme is looked up where there is none. -/
  inRange : s.compile t limits ≠ .error .noGrapheme

theorem placeByPlace (filled : t.Filled) (textual : t.Textual) (ht : s.target = .text target)
    (hr : s.replacement = .text replacement) (one : s.environment.toList.count marker = 1)
    (paired : t.mentionedIn replacement.toList = true)
    (bound : t.mentionedIn target.toList = true) :
    PlaceByPlace t s target replacement limits (width t target.toList replacement.toList) where
  shortest := isLeast_width bound paired
  positive := width_pos bound paired filled
  spelled := by
    intro i hi sign hs graphemes found
    have place := (lt_width_iff bound paired).mp hi sign hs graphemes found
    refine ⟨_, Categories.text_of_place textual found place, ?_, ?_⟩
    · rw [Categories.spelled, found, String.toList_ofList]
    · rw [Categories.spelledPattern, found, String.toList_ofList]
  returns := by
    intro subs
    rw [compile_places_unit ht hr one textual paired bound, mapM_eq_ok_iff]
  fails := by
    intro e
    rw [compile_places_unit ht hr one textual paired bound, mapM_eq_error_iff]
    constructor
    · rintro ⟨i, j, there, fails, before⟩
      obtain ⟨hi, same⟩ := List.getElem?_eq_some_iff.mp there
      rw [List.length_range] at hi
      rw [List.getElem_range] at same
      cases same
      exact ⟨i, hi, fails, fun j hj => before j hj j (List.getElem?_range (hj.trans hi))⟩
    · rintro ⟨i, hi, fails, before⟩
      refine ⟨i, i, List.getElem?_range hi, fails, fun j hj b hb => ?_⟩
      rw [List.getElem?_range (hj.trans hi), Option.some.injEq] at hb
      exact hb ▸ before j hj

/-- Every sound change of texts over a table of texts has its outcome. -/
theorem outcome (filled : t.Filled) (textual : t.Textual) (ht : s.target = .text target)
    (hr : s.replacement = .text replacement) (limits : Limits) :
    Outcome t s target replacement limits := by
  by_cases one : s.environment.toList.count marker = 1
  case neg =>
    have refused : s.compile t limits = .error (.environment s.environment) := compile_unmarked one
    exact {
      environment := fun text => by simpa [refused, one] using eq_comm
      alone := fun marked => absurd marked one
      bare := by simp [refused, one]
      paired := fun marked => absurd marked one
      fault := fun pattern literal => unusable_unitBetween pattern literal limits
      inRange := by simp [refused] }
  case pos =>
    by_cases unpaired :
        t.mentionedIn replacement.toList = true ∧ t.mentionedIn target.toList = false
    case pos =>
      have refused : s.compile t limits = .error (.target s.target) :=
        compile_unpaired (sidesOf_front one) ht hr limits unpaired.1 unpaired.2
      exact {
        environment := by simp [refused, one]
        alone := fun _ alone => by simp [unpaired.1] at alone
        bare := fun d => by simpa [refused, one, unpaired.1, unpaired.2] using eq_comm
        paired := fun _ _ bound => by simp [unpaired.2] at bound
        fault := fun pattern literal => unusable_unitBetween pattern literal limits
        inRange := by simp [refused] }
    case neg =>
      have bound (paired : t.mentionedIn replacement.toList = true) :
          t.mentionedIn target.toList = true := by
        by_contra bare
        exact unpaired ⟨paired, Bool.eq_false_iff.mpr bare⟩
      have faults : FailsOnly _ (s.compile t limits) := unusable_compile ht hr one textual bound
      exact {
        environment := by
          intro text
          refine ⟨fun refused => ?_, fun ⟨unmarked, _⟩ => absurd one unmarked⟩
          obtain ⟨_, unusable⟩ := faults _ refused
          exact absurd rfl (unusable.isNot.1 text)
        alone := fun _ alone => compile_alone_unit ht hr one textual alone
        bare := by
          intro d
          refine ⟨fun refused => ?_, fun ⟨_, paired, bare, _⟩ => absurd ⟨paired, bare⟩ unpaired⟩
          obtain ⟨_, unusable⟩ := faults _ refused
          exact absurd rfl (unusable.isNot.2.1 d)
        paired := fun _ paired bound => ⟨_, placeByPlace filled textual ht hr one paired bound⟩
        fault := fun pattern literal => unusable_unitBetween pattern literal limits
        inRange := by
          intro refused
          obtain ⟨_, unusable⟩ := faults _ refused
          exact unusable.isNot.2.2 rfl }

end Neogrammar.SoundChange

namespace Neogrammar.SoundChanges

open SoundChange

variable {t : Categories} {limits : Limits}

/-- The sound changes of a language compiled in order, up to the first that fails. -/
structure InOrder (t : Categories) (rules : List SoundChange) (limits : Limits) : Prop where
  returns : ∀ subs, compileAll ⟨t, rules⟩ limits = .ok subs ↔
    ∃ parts, List.Forall₂ (fun s part => s.compile t limits = .ok part) rules parts
      ∧ parts.flatten = subs
  fails : ∀ e, compileAll ⟨t, rules⟩ limits = .error e ↔
    ∃ (i : Nat) (s : SoundChange), rules[i]? = some s ∧ s.compile t limits = .error e
      ∧ ∀ j < i, ∀ r, rules[j]? = some r → ∃ part, r.compile t limits = .ok part

theorem inOrder (t : Categories) (rules : List SoundChange) (limits : Limits) :
    InOrder t rules limits where
  returns := fun subs => by
    rw [compileAll, compileRules_eq, map_eq_ok_iff]
    simp only [mapM_eq_ok_iff]
  fails := fun e => by rw [compileAll, compileRules_eq, map_eq_error_iff, mapM_eq_error_iff]

/-- Over a table that adding and taking out categories of texts leads to, each sound change of
texts has its outcome, and all of them together are compiled in order. -/
theorem compile_outcome (built : t.Built fun g => g.isText = true) (limits : Limits) :
    (∀ (s : SoundChange) target replacement, s.target = .text target →
        s.replacement = .text replacement → s.Outcome t target replacement limits)
      ∧ ∀ rules, InOrder t rules limits :=
  ⟨fun _ _ _ ht hr => outcome built.storable.filled built.textual ht hr limits,
    fun rules => inOrder t rules limits⟩

/-- Two categories of different lengths, one of them with a grapheme that is the key of the
other. -/
def unevenTable : Categories :=
  ⟨[('V', [.text "a", .text "C", .text "u"]), ('C', [.text "ts", .text "k."])]⟩

def unevenRule : SoundChange := ⟨.text "CV", .text "VV", "_#"⟩

theorem compile_outcome_uneven :
    unevenTable.Built (fun g => g.isText = true)
      ∧ PlaceByPlace unevenTable unevenRule "CV" "VV" .default 2
      ∧ InOrder unevenTable [unevenRule, ⟨.text "a", .text "V", "_"⟩] .default := by
  have built : unevenTable.Built fun g => g.isText = true := by
    have vowels : Categories.empty.add (.text "V") (.text "aCu")
        = .ok ⟨[('V', [.text "a", .text "C", .text "u"])]⟩ := rfl
    have both : Categories.add ⟨[('V', [.text "a", .text "C", .text "u"])]⟩ (.text "C")
        (.list [.text "ts", .text "k."]) = .ok unevenTable := rfl
    refine .add (.add .empty ?_ vowels) ?_ both
    · rintro graphemes h
      cases h
      decide
    · rintro graphemes h
      cases h
      decide
  obtain ⟨outcomes, inOrder⟩ := compile_outcome built .default
  obtain ⟨width, places⟩ :=
    (outcomes unevenRule "CV" "VV" rfl rfl).paired (by decide) (by decide) (by decide)
  have two : IsLeast (lengthsOf unevenTable ("CV".toList ++ "VV".toList)) 2 := by
    refine ⟨⟨'C', by decide, _, rfl, rfl⟩, ?_⟩
    rintro n ⟨sign, hs, graphemes, found, rfl⟩
    have signs : sign ∈ ['C', 'V', 'V', 'V'] := hs
    simp only [List.mem_cons, List.not_mem_nil, or_false, or_self] at signs
    rcases signs with rfl | rfl <;> cases found <;> decide
  exact ⟨built, two.unique places.shortest ▸ places, inOrder _⟩

end Neogrammar.SoundChanges
