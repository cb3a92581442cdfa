import Neogrammar.Proofs.Pattern.Flanked
import Neogrammar.Proofs.SoundChange.Compile

/-!
# Sound changes without an environment

A sound change with nothing around its marker is compiled to its target between two empty groups.
Where the target refers to no group by its number, that pattern matches what the target alone
matches, so applying the substitution once replaces every match of the target. A reference by number
is read in the whole pattern, where the first group is not one of the target.
-/
namespace Neogrammar.SoundChange

open Pattern Pattern.Reader

variable {name : String} {groups d p : Nat} {g g' : Groups} {r : Reader} {P : Parsed}

/-- A named group without a body is read as one item. -/
theorem sequence_emptyGroup {fuel : Nat} {top : Bool} {items : Items} {rest : List Char}
    (hn : IsGroupName name) (new : Fresh name g) (enough : 0 < fuel) (hr : Whole rest) :
    sequence (fuel + 2) top .none g items ⟨p, inGroup name [] ++ rest⟩
      = sequence fuel top .none (withBody g name .empty) ((.group g.count .empty, .plain) :: items)
          ⟨p + (inGroup name []).length, rest⟩ := by
  have body : joinItems (plainItems []) = .empty := rfl
  have read := @sequence_group name p rest fuel top g items [] [] hn .nil new (by simpa) hr
  rwa [List.flatten_nil, body] at read

/-- The group after ends the pattern. -/
theorem sequence_lastGroup {fuel : Nat} {top : Bool} {items : Items} (ended : r.rest = [])
    (new : Fresh afterGroup g) (enough : 2 < fuel) :
    sequence fuel top .none g items (r.within d (inGroup afterGroup []))
      = .ok ⟨joinItems ((.group g.count .empty, .plain) :: items), .none,
          withBody g afterGroup .empty, ⟨r.position + d + (inGroup afterGroup []).length, []⟩⟩ := by
  obtain ⟨fuel, rfl⟩ : ∃ n, fuel = n + 2 := ⟨fuel - 2, by omega⟩
  rw [Reader.within, ended, List.nil_append, ← List.append_nil (inGroup afterGroup []),
    sequence_emptyGroup isGroupName_after new (by omega) whole_nil, sequence_end, List.append_nil]

theorem fresh_shifted (fresh : Fresh afterGroup g) : Fresh afterGroup (g.shifted beforeGroup) := by
  rw [Fresh, Groups.lookup_shifted (by decide), fresh]
  rfl

/-- The alternatives of a target are read behind the group before, the first of them in its own
sequence, and the last of them with the group after it. -/
theorem reads_between (h : Reads .alternatives false .none g r P) (whole : Whole r.rest)
    (byName : refersByNumber r.rest = false) (fresh : Fresh beforeGroup P.groups)
    (freshAfter : Fresh afterGroup P.groups) (ended : P.reader.rest = [])
    (each : P.node.EachGroup (· < groups + 1)) (count : P.groups.count = groups + 1)
    {base : Items} {top' : Bool} {fuel fuel' : Nat} (hb : AtMost 1 base)
    (start : base ≠ [] ∨ top' = false) (follow : GroupsFollow True beforeGroup g g')
    (enough : 4 * (r.within d (inGroup afterGroup [])).rest.length + 1 ≤ fuel)
    (enough' : 4 * (r.within d (inGroup afterGroup [])).rest.length + 1 ≤ fuel') :
    P.modes = .none ∧ ∃ node' q,
      sequence fuel top' .none g' base (r.within d (inGroup afterGroup [])) >>= readOthers fuel'
        = .ok ⟨node', .none, withBody (P.groups.shifted beforeGroup) afterGroup .empty, ⟨q, []⟩⟩
      ∧ Between groups P.node node' := by
  have hs : Bracketed (inGroup afterGroup []) := .opening _
  have long : 2 < (inGroup afterGroup []).length := by decide
  generalize part_eq : Part.alternatives = part at h
  generalize modes_eq : Modes.none = m at h
  generalize top_eq : false = top at h
  induction h generalizing base top' fuel fuel' g' with
  | @single top m g r P one noBar =>
    subst modes_eq top_eq
    obtain ⟨last, last', g'', more, node, modes, groups', items, enough'', eq⟩ :=
      one.follow (d := d) hs whole (fun _ : True => rfl) (fun _ => byName) (fun _ => fresh)
        verbose_none follow .nil start enough (.inl trivial)
    obtain ⟨nonempty, rfl⟩ := groups' trivial
    rw [List.nil_append, sequence_lastGroup ended (fresh_shifted freshAfter)
      (by rw [length_within] at enough''; omega), Groups.count_shifted nonempty, count] at eq
    rw [node] at each
    have last_bar : ∀ q, (⟨q, []⟩ : Reader).accept '|' = .ok (false, ⟨q, []⟩) :=
      fun q => accept_unseen (by simp)
    refine ⟨modes, _, P.reader.position + d + (inGroup afterGroup []).length, ?_,
      node ▸ between_joinItems each items hb (.inr rfl)⟩
    rw [eq, ok_bind, readOthers, last_bar, ok_bind, if_neg Bool.false_ne_true]
    rfl
  | @more top m g r r₁ first rest one bar past others ihOne ihOthers =>
    subst modes_eq top_eq
    have grown := one.grown whole
    obtain ⟨whole₁, whole₂, less⟩ := grown.past whole bar past
    have names := (others.grown whole₂).names
    have byName₂ := refersByNumber_onward (grown.onward.trans (.one bar past)) whole byName
    obtain ⟨last, last', g'', more, node, modes, groups', items, enough'', eq⟩ :=
      one.follow (d := d) hs whole (fun _ : True => rfl) (fun _ => byName)
        (fun _ => fresh.before names) verbose_none follow .nil start enough (.inl trivial)
    have stops : Stops (first.reader.within d (inGroup afterGroup [])) :=
      .inr (.inl (next_within whole₁ bar))
    rw [length_within] at enough'
    obtain ⟨fuel', rfl⟩ : ∃ n, fuel' = n + 1 := ⟨fuel' - 1, by omega⟩
    have enough₂ : 4 * (r₁.within d (inGroup afterGroup [])).rest.length + 1 ≤ fuel' := by
      rw [length_within]
      omega
    obtain ⟨modes₂, node₂, q, rest_eq, between⟩ := ihOthers whole₂ byName₂ fresh freshAfter ended
      each.2 count (.inl rfl) (.inr rfl) groups' enough₂ enough₂ rfl modes.symm rfl
    rw [modes] at modes₂ rest_eq
    have first_each : (joinItems last).EachGroup (· < groups + 1) := node ▸ each.1
    have sequence_between := between_joinItems first_each items hb (.inl rfl)
    refine ⟨modes₂, _, q, ?_, node ▸ sequence_between.alt between⟩
    rw [List.nil_append, sequence_stop stops] at eq
    rw [eq, ok_bind, readOthers, accept_next (next_within whole₁ bar)
      (advance_within whole₁ hs bar past), ok_bind, if_pos rfl, alternatives_eq, rest_eq]
    rfl
  | _ => cases part_eq

/-- Whether a pattern is accepted where modes for the whole of it are refused. -/
def setsNoModes (s : List Char) : Bool :=
  (alternatives (4 * s.length + 4) false .none .start ⟨0, s⟩).isOk

theorem setsNoModes_read {s : List Char} (early : setsNoModes s = true)
    (read : alternatives (4 * s.length + 4) true .none .start ⟨0, s⟩ = .ok P) :
    alternatives (4 * s.length + 4) false .none .start ⟨0, s⟩ = .ok P := by
  rw [setsNoModes] at early
  cases accepted : alternatives (4 * s.length + 4) false .none .start ⟨0, s⟩ with
  | error e =>
    rw [accepted] at early
    cases early
  | ok Q =>
    rw [alternatives_top accepted] at read
    exact read

/-- A pattern that does what another does, between the two named groups. -/
structure Framed (c c' : Compiled) : Prop where
  root : Between c.groups c.root c'.root
  groups : c'.groups = c.groups + 2
  before : c'.names.lookup beforeGroup = some 1
  after : c'.names.lookup afterGroup = some (c.groups + 2)

theorem follow_start :
    GroupsFollow True beforeGroup .start (withBody .start beforeGroup .empty) :=
  fun _ => ⟨Nat.one_pos, rfl⟩

/-- Between the two empty groups a target is accepted if it is accepted alone. -/
theorem parse_between {s : List Char} {c : Compiled} (parsed : Pattern.parse s = .ok c)
    (early : setsNoModes s = true) (byName : refersByNumber s = false)
    (fresh : c.names.lookup beforeGroup = none) (freshAfter : c.names.lookup afterGroup = none) :
    ∃ c', Pattern.parse (unitPattern [] s []) = .ok c' ∧ Framed c c' := by
  have each := parse_eachGroup parsed
  obtain ⟨P, whole, read, complete, rfl⟩ := parse_eq_ok_iff.mp parsed
  have reads : Reads .alternatives false .none .start ⟨0, s⟩ P :=
    reads_of_parse whole (setsNoModes_read early read)
  have nonempty : 0 < P.groups.count := (reads.grown whole).count
  have count : P.groups.count = P.groups.count - 1 + 1 := by omega
  have written : unitPattern [] s [] = inGroup beforeGroup [] ++ (s ++ inGroup afterGroup []) := by
    simp [unitPattern]
  have length : (unitPattern [] s []).length
      = (inGroup beforeGroup []).length + (s.length + (inGroup afterGroup []).length) := by
    rw [written, List.length_append, List.length_append]
  have enough : 4 * ((⟨0, s⟩ : Reader).within (inGroup beforeGroup []).length
      (inGroup afterGroup [])).rest.length + 1 ≤ 4 * (unitPattern [] s []).length + 1 := by
    rw [length_within, length]
    dsimp only
    omega
  obtain ⟨modes, node', q, eq, between⟩ : P.modes = .none ∧ ∃ node' q,
      sequence (4 * (unitPattern [] s []).length + 1) true .none
          (withBody .start beforeGroup .empty) [(.group 1 .empty, .plain)]
          ((⟨0, s⟩ : Reader).within (inGroup beforeGroup []).length (inGroup afterGroup []))
        >>= readOthers (4 * (unitPattern [] s []).length + 3)
        = .ok ⟨node', .none, withBody (P.groups.shifted beforeGroup) afterGroup .empty, ⟨q, []⟩⟩
      ∧ Between (P.groups.count - 1) P.node node' :=
    reads_between reads whole byName fresh freshAfter complete.rest each count (.inr rfl)
      (.inl (by simp)) follow_start enough (Nat.le_trans enough (Nat.le_add_right _ 2))
  have whole' : Whole (s ++ inGroup afterGroup []) := whole_append whole (.opening _)
  have first : alternatives (4 * (unitPattern [] s []).length + 4) true .none .start
      ⟨0, unitPattern [] s []⟩
      = .ok ⟨node', .none, withBody (P.groups.shifted beforeGroup) afterGroup .empty, ⟨q, []⟩⟩ := by
    rw [alternatives_eq, ← eq]
    congr 1
    generalize (unitPattern [] s []).length = n
    rw [written, sequence_emptyGroup isGroupName_before (show Fresh beforeGroup .start from rfl)
      (Nat.succ_pos _) whole']
    rfl
  have count' : (withBody (P.groups.shifted beforeGroup) afterGroup .empty).count
      = P.groups.count + 2 := by
    rw [count_withBody, Groups.count_shifted nonempty]
  have mentions : danglingMention? (withBody (P.groups.shifted beforeGroup) afterGroup .empty)
      = none := by
    refine List.find?_eq_none.mpr fun mention hm => ?_
    have lt := lt_of_knows complete.mentions (.inr ⟨mention, hm, rfl⟩)
    rw [count']
    simp only [ge_iff_le, decide_eq_true_eq]
    omega
  refine ⟨_, parse_eq_ok_iff.mpr ⟨_, whole_cons (by decide), first, ⟨rfl, rfl, mentions, ?_⟩, rfl⟩,
    between, ?_, ?_, ?_⟩
  · exact between.defect (modes ▸ complete.defect)
  · show (withBody _ afterGroup .empty).count - 1 = P.groups.count - 1 + 2
    omega
  · show (_ ++ _ : List (String × Nat)).lookup beforeGroup = some 1
    rw [List.lookup_append]
    rfl
  · show ((P.groups.shifted beforeGroup).names ++ [(afterGroup, _)]).lookup afterGroup = _
    rw [List.lookup_append, fresh_shifted freshAfter, Groups.count_shifted nonempty]
    simp only [Option.none_or, List.lookup_cons, beq_self_eq_true]
    exact congrArg some (by show P.groups.count + 1 = P.groups.count - 1 + 2; omega)

section
variable {c c' : Compiled} {text : Array Char} {replacement : List Char}

/-- A framed pattern matches where the pattern does, up to the same place. -/
theorem Framed.matchAt? (framed : Framed c c') (nonempty : Bool) (p : Nat) :
    Option.Rel (SameMatch c.groups) (c.matchAt? text nonempty p) (c'.matchAt? text nonempty p) := by
  rw [Compiled.matchAt?, Compiled.matchAt?, framed.groups]
  refine framed.root.agree ?_ p _ _ (.none c.groups)
  intro q m m' h
  dsimp only
  split
  · exact .none
  · exact .some ⟨rfl, h⟩

/-- Nothing but the replacement is put in the place of a match: both groups are empty. -/
theorem render_around {m m' : Marks} (h : Flanked groups m m') (q : Nat) :
    (aroundPieces 1 (groups + 2) replacement).render text p q m' = replacement := by
  rw [render_aroundPieces, h.groupText_front, h.groupText_back, List.nil_append, List.append_nil]

/-- Replacing the matches of a framed pattern replaces those of the pattern. -/
theorem Framed.replaceFrom (framed : Framed c c') (fuel p : Nat) (nonempty : Bool) :
    c'.replaceFrom (aroundPieces 1 (c.groups + 2) replacement) text fuel p nonempty
      = c.replaceFrom [.text replacement] text fuel p nonempty := by
  induction fuel generalizing p nonempty with
  | zero => rfl
  | succ fuel ih =>
    rw [Compiled.replaceFrom, Compiled.replaceFrom]
    have same : Option.Rel (SameMatch c.groups) (c.matchAt? text nonempty p)
      (c'.matchAt? text nonempty p) := framed.matchAt? nonempty p
    revert same
    generalize c.matchAt? text nonempty p = found
    generalize c'.matchAt? text nonempty p = found'
    intro same
    cases same with
    | @some f f' h =>
      obtain ⟨stop, marks⟩ := h
      simp only [render_around marks, ih, stop]
      simp [Template.render]
    | none => simp only [ih]

end

/-- A text that mentions no category stands for itself. -/
theorem expand_unmentioned {t : Categories} {s : String} (h : t.mentionedIn s.toList = false) :
    t.expand (.text s) = .ok s.toList := by
  have each : ∀ c ∈ s.toList, t.expandSign (.char c) = .ok [c] := by
    intro c hc
    have absent : t.find? c = none := by
      simpa [Categories.has] using List.any_eq_false.mp h c hc
    simp only [Categories.expandSign, absent]
  rw [Categories.expand_of_signs each, ← List.flatMap_def, List.flatMap_singleton']

/-- With nothing around the marker, a sound change whose target refers to no group by number is
compiled to one substitution, and applying it once replaces every match of the target alone. -/
theorem compile_bare (t : Categories) (limits : Limits) {target replacement : String}
    {c : Compiled} (parsed : Pattern.parse target.toList = .ok c)
    (early : setsNoModes target.toList = true) (byName : refersByNumber target.toList = false)
    (fresh : c.names.lookup beforeGroup = none) (freshAfter : c.names.lookup afterGroup = none)
    (unmentioned : t.mentionedIn target.toList = false)
    (literal : t.mentionedIn replacement.toList = false) :
    ∃ sub, compile t ⟨.text target, .text replacement, "_"⟩ limits = .ok [sub]
      ∧ ∀ text, sub.applyOnce text
        = String.ofList (c.replace [.text replacement.toList] text.toList) := by
  obtain ⟨c', accepted, framed⟩ := parse_between parsed early byName fresh freshAfter
  have around := readTemplate_around framed.before framed.after
    (by rw [framed.groups]; omega) (Nat.le_of_eq framed.groups.symm) replacement.toList
  have sides : sidesOf "_" = .ok (String.ofList [], String.ofList []) :=
    sidesOf_marker rfl ⟨List.not_mem_nil, List.not_mem_nil⟩
  have empty : t.expand (.text (String.ofList [])) = .ok [] := expand_unmentioned rfl
  refine ⟨⟨String.ofList (unitPattern [] target.toList []),
    String.ofList (unitTemplate replacement.toList), limits, c',
    aroundPieces 1 (c.groups + 2) replacement.toList⟩, ?_, fun text => ?_⟩
  · simp only [compile, sides, ok_bind, Categories.referenced_text, isEmpty_mentioned, literal,
      Bool.not_false, ↓reduceIte, expand_unmentioned unmentioned, substitutionFor, empty,
      Substitution.ofTexts, String.toList_ofList, accepted, around, pure_eq_ok]
  · exact congrArg String.ofList (framed.replaceFrom _ 0 false)

/-- A target with groups and a branch that depends on one of them by name. -/
def branching : String := "(?P<v>a)?b(?(v)c|(\\144))"

theorem compile_bare_branching : ∃ sub,
    compile specialLetters ⟨.text branching, .text "x\\1", "_"⟩ .default = .ok [sub]
      ∧ sub.applyOnce "abcbdabd" = "x\\1x\\1ax\\1" := by
  have facts : ((Pattern.parse branching.toList).toOption.map fun c =>
      ((c.names.lookup beforeGroup, c.names.lookup afterGroup),
        c.replace [.text "x\\1".toList] "abcbdabd".toList))
      = some ((none, none), "x\\1x\\1ax\\1".toList) := by
    decide +kernel
  cases parsed : Pattern.parse branching.toList with
  | error e =>
    rw [parsed] at facts
    cases facts
  | ok c =>
    rw [parsed] at facts
    simp only [Except.toOption, Option.map_some, Option.some.injEq, Prod.mk.injEq] at facts
    obtain ⟨⟨fresh, freshAfter⟩, replaced⟩ := facts
    obtain ⟨sub, compiled, replaces⟩ := compile_bare specialLetters .default parsed
      (by decide +kernel) (by decide +kernel) fresh freshAfter (by decide +kernel)
      (show specialLetters.mentionedIn "x\\1".toList = false by decide +kernel)
    exact ⟨sub, compiled, by rw [replaces, replaced, String.ofList_toList]⟩

/-- A reference by number means a group of the whole pattern, the first of which is the empty one
before the target. -/
theorem applyOnce_numbered :
    (compile .empty ⟨.text "(a)\\1", .text "x", "_"⟩ .default).toOption.map
        (List.map (·.applyOnce "aa")) = some ["xx"]
      ∧ (Pattern.parse "(a)\\1".toList).toOption.map (·.replace [.text ['x']] ['a', 'a'])
        = some ['x'] := by
  decide +kernel

end Neogrammar.SoundChange
