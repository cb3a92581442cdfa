import Neogrammar.Proofs.Pattern.Known
import Neogrammar.Proofs.SoundChange.Outside
import Neogrammar.Proofs.SoundChange.Spelling

/-!
# Refused sound changes

A sound change of texts fails to compile because its environment has no marker of its own, because
its target has no category to pair, because a category has a grapheme that is no text, because one
of its patterns is refused, or because a pattern is accepted without the group after. The group
before is in every accepted pattern, and a grapheme at a place of a paired sound change is always
there.
-/
namespace Neogrammar

/-- A substitution is refused for its pattern, or for its template. -/
theorem Substitution.ofTexts_error {pattern replacement rule : String} {limits : Limits} {e : Error}
    (h : ofTexts pattern replacement rule limits = .error e) :
    (∃ refusal, Pattern.parse pattern.toList = .error refusal ∧
        e = .ofRefusal rule pattern refusal) ∨
      ∃ compiled refusal, Pattern.parse pattern.toList = .ok compiled ∧
        readTemplate compiled replacement = .error refusal ∧
        e = .ofRefusal rule replacement refusal := by
  unfold ofTexts at h
  split at h
  · rename_i refusal hp
    cases h
    exact .inl ⟨refusal, hp, rfl⟩
  · rename_i compiled hp
    split at h
    · rename_i refusal ht
      cases h
      exact .inr ⟨compiled, refusal, hp, ht, rfl⟩
    · cases h

/-! ## Categories with graphemes that are no texts -/

namespace Categories

variable {t : Categories} {key : Char} {graphemes : List Datum} {i : Nat}

theorem Textual.find? (ht : t.Textual) (h : t.find? key = some graphemes) :
    ∀ g ∈ graphemes, g.isText = true :=
  ht _ (mem_of_find? h)

theorem classOf_returns (h : ∀ g ∈ graphemes, g.isText = true) :
    ∃ pattern, classOf graphemes = .ok pattern := by
  exact ⟨anyOf (textsOf graphemes), by simp only [classOf, texts?_eq h]⟩

/-- An error of a grapheme that is no text. -/
def Loose (t : Categories) (e : Error) : Prop := e = .wrongKind ∧ ¬t.Textual

theorem loose_of_mem {g : Datum} (found : t.find? key = some graphemes) (hg : g ∈ graphemes)
    (other : g.isText = false) : t.Loose .wrongKind := by
  refine ⟨rfl, fun textual => ?_⟩
  rw [textual.find? found g hg] at other
  cases other

theorem loose_classOf (found : t.find? key = some graphemes) :
    FailsOnly t.Loose (classOf graphemes) := by
  by_cases texts : ∀ g ∈ graphemes, g.isText = true
  · obtain ⟨pattern, hp⟩ := classOf_returns texts
    exact .of_eq_ok hp
  · push Not at texts
    obtain ⟨g, hg, other⟩ := texts
    unfold classOf
    split
    · exact .ok _
    · exact .error (loose_of_mem found hg (by simpa using other))

theorem loose_expand (t : Categories) (s : String) : FailsOnly t.Loose (t.expand (.text s)) := by
  have signs (cs : List Char) : FailsOnly t.Loose (t.expandSigns (cs.map .char)) := by
    induction cs with
    | nil => exact .ok _
    | cons c cs ih =>
      have first : FailsOnly t.Loose (t.expandSign (.char c)) := by
        simp only [expandSign]
        split
        · exact loose_classOf ‹_›
        · exact .ok _
      exact first.bind fun _ _ => ih.bind fun _ _ => .ok _
  exact signs s.toList

/-- At a place that its category has, a sign becomes a grapheme. -/
theorem loose_resolveSign {asPattern : Bool} (place : ∀ gs, t.find? key = some gs → i < gs.length) :
    FailsOnly t.Loose (t.resolveSign i asPattern (.char key)) ∧
      ∀ d, t.resolveSign i asPattern (.char key) = .ok d → d.isText = false → ¬t.Textual := by
  cases found : t.find? key with
  | none =>
    simp only [resolveSign, found]
    refine ⟨.ok _, fun d h => ?_⟩
    cases h
    exact fun other => by cases other
  | some graphemes =>
    obtain ⟨g, there⟩ : ∃ g, graphemes[i]? = some g :=
      ⟨_, List.getElem?_eq_getElem (place graphemes found)⟩
    have member : g ∈ graphemes := List.mem_of_getElem? there
    simp only [resolveSign, found, atIndex?_natCast, there]
    cases text : g.isText with
    | true =>
      obtain ⟨s, rfl⟩ := Datum.isText_iff.mp text
      refine ⟨.ok _, fun d h => ?_⟩
      cases h
      exact fun other => by cases other
    | false =>
      have loose := loose_of_mem found member text
      refine ⟨?_, fun _ _ _ => loose.2⟩
      split
      · rename_i absent
        cases absent
      · rename_i same
        cases same
        cases text
      · split
        · exact .error loose
        · exact .ok _

theorem untext_joinTexts (parts : List Datum) :
    FailsOnly (fun e => e = .wrongKind ∧ ∃ d ∈ parts, d.isText = false) (joinTexts parts) := by
  induction parts with
  | nil => exact .ok _
  | cons d parts ih =>
    cases text : d.isText with
    | true =>
      obtain ⟨s, rfl⟩ := Datum.isText_iff.mp text
      have later : FailsOnly (fun e => e = .wrongKind ∧ ∃ d ∈ .text s :: parts, d.isText = false)
          (joinTexts parts) := by
        refine ih.mono ?_
        rintro e ⟨kind, d, hd, other⟩
        exact ⟨kind, d, List.mem_cons_of_mem _ hd, other⟩
      exact later.bind fun _ _ => .ok _
    | false =>
      unfold joinTexts
      split
      · rename_i nil
        cases nil
      · rename_i cons
        cases cons
        cases text
      · exact .error ⟨rfl, d, List.mem_cons_self, text⟩

theorem loose_resolve {s : String} {asPattern : Bool}
    (place : ∀ c ∈ s.toList, ∀ gs, t.find? c = some gs → i < gs.length) :
    FailsOnly t.Loose (t.resolve (.text s) i asPattern) := by
  rw [resolve, Sign.ofDatum_text, ok_bind]
  refine FailsOnly.bind (.mapM fun sign hs => ?_) fun parts hp => ?_
  · obtain ⟨c, hc, rfl⟩ := List.mem_map.mp hs
    exact (loose_resolveSign (place c hc)).1
  · refine (untext_joinTexts parts).mono ?_
    rintro e ⟨kind, d, hd, other⟩
    refine ⟨kind, ?_⟩
    obtain ⟨k, hk⟩ := List.mem_iff_getElem?.mp hd
    obtain ⟨sign, hs, hsign⟩ := of_mapM_eq_ok hp hk
    obtain ⟨c, hc, rfl⟩ := List.mem_map.mp (List.mem_of_getElem? hs)
    exact (loose_resolveSign (place c hc)).2 d hsign other

end Categories

namespace SoundChange

open Pattern Pattern.Reader Error

/-! ## Groups of an accepted pattern -/

variable {fuel : Nat} {P first : Parsed} {c : Compiled}

/-- The names in the first alternative are kept in the others. -/
theorem names_readOthers (whole : Whole first.reader.rest)
    (enough : 4 * first.reader.rest.length + 2 ≤ fuel) (h : readOthers fuel first = .ok P) :
    first.groups.names <+: P.groups.names := by
  obtain ⟨⟨bar, r'⟩, accepted, h⟩ := bind_eq_ok_iff.mp h
  cases bar with
  | true =>
    obtain ⟨others, read, h⟩ := bind_eq_ok_iff.mp h
    cases h
    obtain ⟨next, past⟩ := accept_true accepted
    have whole' := whole_of_advance whole next past
    have less := length_of_advance whole next past
    exact ((reads_of_alternatives whole' (by omega) read).grown whole').names
  | false =>
    cases h
    exact List.prefix_rfl

/-- Whatever is pasted together, an accepted pattern has the group before. -/
theorem before_known {before target after : List Char}
    (parsed : Pattern.parse (unitPattern before target after) = .ok c) :
    ∃ n, c.names.lookup beforeGroup = some n := by
  obtain ⟨P, whole, read, -, rfl⟩ := parse_eq_ok_iff.mp parsed
  rw [alternatives_eq] at read
  obtain ⟨first, one, others⟩ := bind_eq_ok_iff.mp read
  have onward := ((reads_of_sequence whole (by dsimp only; omega) one).grown whole).onward
  have short := onward.length_le whole
  have later := names_readOthers (onward.whole whole) (by dsimp only at short; omega) others
  rw [unitPattern, List.append_assoc] at one
  have front := names_inGroup isGroupName_before (by simp) one
  obtain ⟨more, names⟩ := front.trans later
  exact ⟨1, by rw [Parsed.compiled, ← names, List.lookup_append]; rfl⟩

/-- Behind an accepted pattern the template of a unit is read, unless the group after is lost. -/
theorem readTemplate_accepted {before target after : List Char}
    (parsed : Pattern.parse (unitPattern before target after) = .ok c) (replacement : List Char) :
    (c.names.lookup afterGroup = none
        ∧ Substitution.readTemplate c (String.ofList (unitTemplate replacement))
          = .error (.unknownGroup afterGroup))
      ∨ ∃ b a, c.names.lookup beforeGroup = some b ∧ c.names.lookup afterGroup = some a
        ∧ Substitution.readTemplate c (String.ofList (unitTemplate replacement))
          = .ok (aroundPieces b a replacement) := by
  obtain ⟨b, known⟩ := before_known parsed
  have inside := le_groups_of_parse parsed known
  cases known' : c.names.lookup afterGroup with
  | none => exact .inl ⟨rfl, readTemplate_unknown known known' inside replacement⟩
  | some a =>
    have inside' := le_groups_of_parse parsed known'
    exact .inr ⟨b, a, known, rfl, readTemplate_around known known' inside inside' replacement⟩

/-! ## Ways to be refused -/

/-- Why what is pasted together makes no substitution: it is no pattern, or it is one without the
group after. -/
inductive Unusable (rule : String) (pattern : List Char) : Error → Prop
  | refused {refusal : Refusal} (refused : Pattern.parse pattern = .error refusal) :
      Unusable rule pattern (.ofRefusal rule (String.ofList pattern) refusal)
  | group {c : Compiled} (parsed : Pattern.parse pattern = .ok c)
      (lost : c.names.lookup afterGroup = none) : Unusable rule pattern (.unknownGroup afterGroup)

/-- Whatever the replacement, only the pattern around the target is at fault. -/
theorem unusable_ofTexts (before target after replacement : List Char) (rule : String)
    (limits : Limits) :
    FailsOnly (Unusable rule (unitPattern before target after))
      (Substitution.ofTexts (String.ofList (unitPattern before target after))
        (String.ofList (unitTemplate replacement)) rule limits) := by
  intro e he
  rcases Substitution.ofTexts_error he with
    ⟨refusal, refused, rfl⟩ | ⟨c, refusal, parsed, refused, rfl⟩
  · rw [String.toList_ofList] at refused
    exact .refused refused
  · rw [String.toList_ofList] at parsed
    rcases readTemplate_accepted parsed replacement with ⟨lost, unread⟩ | ⟨b, a, -, -, read⟩
    · rw [unread] at refused
      cases refused
      exact .group parsed lost
    · rw [read] at refused
      cases refused

/-- A pattern that is tried as a sound change is compiled: that of the target at some place between
those of both sides. -/
inductive Tries (t : Categories) (s : SoundChange) : List Char → Prop
  | unit {before after : String} {target b a : List Char} {i : Nat}
      (sides : sidesOf s.environment = .ok (before, after))
      (middle : targetPattern t s i = .ok target) (front : t.expand (.text before) = .ok b)
      (back : t.expand (.text after) = .ok a) : Tries t s (unitPattern b target a)

/-- Why a sound change of texts does not compile. -/
inductive Refused (t : Categories) (s : SoundChange) : Error → Prop
  /-- There is not exactly one marker. -/
  | environment (unmarked : (Text.cutAt (· == marker) s.environment.toList).length ≠ 2) :
      Refused t s (.environment s.environment)
  /-- Only the replacement mentions a category. -/
  | target {target replacement : String} (ht : s.target = .text target)
      (hr : s.replacement = .text replacement) (bare : t.mentionedIn target.toList = false)
      (paired : t.mentionedIn replacement.toList = true) : Refused t s (.target s.target)
  /-- A category has a grapheme that is no text. -/
  | grapheme (loose : ¬t.Textual) : Refused t s .wrongKind
  | pattern {pattern : List Char} {refusal : Refusal} (tried : s.Tries t pattern)
      (refused : Pattern.parse pattern = .error refusal) :
      Refused t s (.ofRefusal s.text (String.ofList pattern) refusal)
  /-- What is pasted together is a pattern without the group after. -/
  | group {pattern : List Char} {c : Compiled} (tried : s.Tries t pattern)
      (parsed : Pattern.parse pattern = .ok c) (lost : c.names.lookup afterGroup = none) :
      Refused t s (.unknownGroup afterGroup)

variable {t : Categories} {s : SoundChange} {before after : String} {target : List Char} {i : Nat}

theorem refused_of_loose {e : Error} (h : t.Loose e) : s.Refused t e := by
  obtain ⟨rfl, loose⟩ := h
  exact .grapheme loose

theorem refused_sidesOf : FailsOnly (s.Refused t) (sidesOf s.environment) := by
  unfold sidesOf
  split
  · exact .ok _
  · rename_i other
    refine .error (.environment fun two => ?_)
    obtain ⟨before, after, h⟩ := List.length_eq_two.mp two
    exact other before after h

theorem refused_substitutionFor (sides : sidesOf s.environment = .ok (before, after))
    (middle : targetPattern t s i = .ok target) (replacement : List Char) (limits : Limits) :
    FailsOnly (s.Refused t) (substitutionFor t s before after target replacement limits) := by
  refine FailsOnly.bind ((t.loose_expand before).mono fun _ => refused_of_loose) fun b front => ?_
  refine FailsOnly.bind ((t.loose_expand after).mono fun _ => refused_of_loose) fun a back => ?_
  have tried : s.Tries t (unitPattern b target a) := .unit sides middle front back
  refine (unusable_ofTexts b target a replacement s.text limits).mono ?_
  rintro e (refused | ⟨parsed, lost⟩)
  · exact .pattern tried refused
  · exact .group tried parsed lost

/-- Nothing else keeps a sound change of texts from being compiled. -/
theorem refused_compile (hs : s.Storable) (limits : Limits) :
    FailsOnly (s.Refused t) (s.compile t limits) := by
  obtain ⟨target, htarget⟩ := Datum.isText_iff.mp hs.target
  obtain ⟨replacement, hreplacement⟩ := Datum.isText_iff.mp hs.replacement
  refine refused_sidesOf.bind ?_
  rintro ⟨before, after⟩ sides
  simp only [htarget, hreplacement, Categories.referenced_text, ok_bind]
  have middle (i : Nat) : targetPattern t s i =
      if (t.mentioned [] (replacement.toList.map .char)).isEmpty then t.expand (.text target)
      else t.resolve (.text target) i true := by
    rw [targetPattern, hreplacement, Categories.referenced_text, ok_bind, htarget]
  split
  · rename_i single
    refine FailsOnly.bind ((t.loose_expand target).mono fun _ => refused_of_loose) fun pattern hp => ?_
    have tried : targetPattern t s 0 = .ok pattern := by rw [middle, if_pos single, hp]
    exact (refused_substitutionFor sides tried _ limits).bind fun _ _ => .ok _
  rename_i pairs
  rw [isEmpty_mentioned, Bool.not_eq_true', Bool.not_eq_false] at pairs
  split
  · rename_i bare
    rw [isEmpty_mentioned, Bool.not_eq_true'] at bare
    exact htarget ▸ .error (.target htarget hreplacement bare pairs)
  · rename_i mentions
    rw [isEmpty_mentioned, Bool.not_eq_true', Bool.not_eq_false] at mentions
    refine .mapM fun i hi => ?_
    rw [List.mem_range, Nat.lt_min, lt_shortest_iff mentions, lt_shortest_iff pairs] at hi
    rw [compilePair, htarget, hreplacement]
    refine FailsOnly.bind ?_ fun pattern hp => ?_
    · exact (Categories.loose_resolve hi.1).mono fun _ => refused_of_loose
    refine FailsOnly.bind ?_ fun r _ => ?_
    · exact (Categories.loose_resolve hi.2).mono fun _ => refused_of_loose
    have tried : targetPattern t s i = .ok pattern := by
      rw [middle, isEmpty_mentioned, pairs, Bool.not_true, if_neg Bool.false_ne_true, hp]
    exact refused_substitutionFor sides tried r limits

end SoundChange
end Neogrammar
