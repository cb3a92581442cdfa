import Mathlib.Data.List.Infix
import Neogrammar.Proofs.Pattern.Follow
import Neogrammar.Proofs.SoundChange.Compile
import Neogrammar.Proofs.Substitution

/-!
# Sound changes outside their environment

A compiled sound change whose pattern is no alternation goes through both of its groups in every
match. Where what stands before is written with categories and characters that mean nothing in a
pattern, or what stands after is, the sound change therefore leaves a text alone in which that does
not occur. A bar of the target outside its groups parts the whole pattern, and then one of the
groups is left out.
-/
namespace Neogrammar.SoundChange

open Pattern Pattern.Reader

variable {name : String} {d p : Nat} {g g' : Groups} {m : Modes} {r : Reader} {P Q first : Parsed}
  {fuel : Nat} {top : Bool} {items : Items} {rest pattern : List Char}

theorem whole_closed (s rest : List Char) : Whole (s ++ ')' :: rest) := by
  cases s with
  | nil => exact whole_cons (by decide)
  | cons c s =>
    intro h
    simp at h

theorem bracketed_inGroup (name : String) (pattern : List Char) :
    Bracketed (inGroup name pattern) := .opening _

theorem within_start (s suffix : List Char) :
    (⟨0, s⟩ : Reader).within p suffix = ⟨p, s ++ suffix⟩ := by
  rw [Reader.within, Nat.zero_add]

/-- How a named group opens. -/
theorem opens_inGroup (hn : IsGroupName name) (pattern rest : List Char) :
    Opens ⟨p, inGroup name pattern ++ rest⟩ (.capture (some name))
      ⟨p + 1 + name.toList.length + 4, pattern ++ ')' :: rest⟩ := by
  have written : inGroup name pattern ++ rest
      = '(' :: '?' :: 'P' :: '<' :: (name.toList ++ '>' :: (pattern ++ ')' :: rest)) := by
    simp [inGroup]
  rw [written]
  exact ⟨_, next_plain (by decide), advance_plain (by decide) (whole_cons (by decide)),
    opening_named hn (whole_closed pattern rest)⟩

/-- Where a sequence that begins with a named group is accepted, the name is new, the body is read
up to a closing bracket, and what follows is read with the group as one more item. -/
theorem inGroup_read (hn : IsGroupName name)
    (h : sequence (fuel + 2) top m g items ⟨p, inGroup name pattern ++ rest⟩ = .ok P) :
    Fresh name g ∧ ∃ body r' g',
      alternatives fuel false m (withGroup g name none)
          ⟨p + 1 + name.toList.length + 4, pattern ++ ')' :: rest⟩ = .ok body
      ∧ body.reader.next = some (.plain ')') ∧ body.reader.advance = .ok r'
      ∧ sequence fuel top m g' ((.group g.count body.node, .plain) :: items) r' = .ok P
      ∧ g'.names = body.groups.names := by
  obtain ⟨start, eq⟩ := sequence_enclosed (m := m) (g := g) (opens_inGroup hn pattern rest) rfl
  rw [eq] at h
  obtain ⟨e, opened, h⟩ := bind_eq_ok_iff.mp h
  obtain ⟨body, read, h⟩ := bind_eq_ok_iff.mp h
  obtain ⟨r', closes, h⟩ := bind_eq_ok_iff.mp h
  obtain ⟨next, advance⟩ := closing_eq_ok closes
  obtain ⟨⟨n, g₁⟩, opened, he⟩ := bind_eq_ok_iff.mp opened
  cases new : g.names.lookup name with
  | some former =>
    rw [Groups.opened, new] at opened
    cases opened
  | none =>
    rw [opened_new new] at opened
    cases opened
    cases he
    exact ⟨new, body, r', _, read, next, advance, h, rfl⟩

theorem length_inGroup (name : String) (pattern : List Char) :
    (inGroup name pattern).length = pattern.length + name.toList.length + 6 := by
  simp only [inGroup, List.length_append, List.length_cons, List.length_nil]
  omega

theorem length_unitPattern (before target after : List Char) :
    (unitPattern before target after).length
      = (inGroup beforeGroup before).length
        + (target.length + (inGroup afterGroup after).length) := by
  rw [unitPattern, List.append_assoc, List.length_append, List.length_append]

/-- With steps enough, what follows a named group is read with the name of the group kept. -/
theorem inGroup_reads (hn : IsGroupName name)
    (enough : 4 * (inGroup name pattern ++ rest).length + 1 ≤ fuel)
    (h : sequence fuel top m g items ⟨p, inGroup name pattern ++ rest⟩ = .ok P) :
    ∃ item g' r', Whole r'.rest ∧ (withGroup g name none).names <+: g'.names
      ∧ Reads (.items (item :: items)) top m g' r' P := by
  have long : (inGroup name pattern ++ rest).length
      = (pattern ++ ')' :: rest).length + name.toList.length + 5 := by
    rw [List.length_append, length_inGroup, List.length_append, List.length_cons]
    omega
  obtain ⟨fuel, rfl⟩ : ∃ n, fuel = n + 2 := ⟨fuel - 2, by omega⟩
  obtain ⟨-, body, r', g', read, next, advance, h, names⟩ := inGroup_read hn h
  have whole := whole_closed pattern rest
  have grown := (reads_of_alternatives whole (by dsimp only; omega) read).grown whole
  obtain ⟨-, whole', less⟩ := grown.past whole next advance
  exact ⟨_, g', r', whole', names ▸ grown.names,
    reads_of_sequence whole' (by dsimp only at less; omega) h⟩

/-- Behind a named group, earlier items stay as they are. -/
theorem inGroup_keeps (hn : IsGroupName name)
    (enough : 4 * (inGroup name pattern ++ rest).length + 1 ≤ fuel)
    (h : sequence fuel top m g items ⟨p, inGroup name pattern ++ rest⟩ = .ok P) :
    ∃ more, P.node = joinItems (more ++ items) := by
  obtain ⟨item, g', r', -, -, reads⟩ := inGroup_reads hn enough h
  exact reads.keeps (List.singleton_append).symm (List.cons_ne_nil _ _)

/-- The name of a group that a sequence begins with is kept. -/
theorem names_inGroup (hn : IsGroupName name)
    (enough : 4 * (inGroup name pattern ++ rest).length + 1 ≤ fuel)
    (h : sequence fuel top m g items ⟨p, inGroup name pattern ++ rest⟩ = .ok P) :
    (withGroup g name none).names <+: P.groups.names := by
  obtain ⟨item, g', r', whole, names, reads⟩ := inGroup_reads hn enough h
  exact names.trans (reads.grown whole).names

/-- The other alternatives are none where the whole is no alternation. -/
theorem readOthers_single (h : readOthers fuel first = .ok P) (single : ∀ a b, P.node ≠ .alt a b) :
    first.reader.next ≠ some (.plain '|') ∧ P.node = first.node := by
  obtain ⟨⟨bar, r'⟩, accepted, h⟩ := bind_eq_ok_iff.mp h
  cases bar with
  | true =>
    obtain ⟨others, -, h⟩ := bind_eq_ok_iff.mp h
    cases h
    exact absurd rfl (single _ _)
  | false =>
    cases h
    exact ⟨(accept_false accepted).1, rfl⟩

/-- Behind other items, a text that is a pattern by itself is read up to its end where it is read at
all and no bar comes next. -/
theorem sequence_past {s suffix : List Char} {c : Compiled} {base : Items}
    (parsed : Pattern.parse s = .ok c) (hs : Bracketed suffix) (start : base ≠ [])
    (enough : 4 * (s.length + suffix.length) + 1 ≤ fuel)
    (h : sequence fuel top .none g base ⟨p, s ++ suffix⟩ = .ok Q)
    (noBar : Q.reader.next ≠ some (.plain '|')) :
    ∃ last g' fuel' q, 4 * suffix.length + 1 ≤ fuel'
      ∧ sequence fuel' top .none g' (last ++ base) ⟨q, suffix⟩ = .ok Q := by
  obtain ⟨P, whole, read, complete, rfl⟩ := parse_eq_ok_iff.mp parsed
  rw [← within_start] at h
  have enough' : 4 * ((⟨0, s⟩ : Reader).within p suffix).rest.length + 1 ≤ fuel := by
    rwa [length_within]
  have goes : Goes False
      (sequence fuel top .none g ([] ++ base) ((⟨0, s⟩ : Reader).within p suffix)) := .inr ⟨Q, h⟩
  cases reads_of_parse whole read with
  | single one _ =>
    obtain ⟨-, last, g', fuel', -, -, -, -, enough'', eq⟩ :=
      one.follow_accepted hs whole verbose_none False.elim .nil (.inl start) enough' goes
    rw [List.nil_append, h] at eq
    rw [Reader.within, complete.rest, List.nil_append] at enough'' eq
    exact ⟨last, g', fuel', _, enough'', eq.symm⟩
  | @more _ _ _ _ _ first _ one bar past _ =>
    have bar' : (first.reader.within p suffix).next = some (.plain '|') :=
      next_within ((one.grown whole).onward.whole whole) bar
    obtain ⟨-, last, g', fuel', -, -, -, -, -, eq⟩ :=
      one.follow_accepted hs whole verbose_none False.elim .nil (.inl start) enough' goes
    rw [List.nil_append, h, sequence_stop (.inr (.inl bar'))] at eq
    cases eq
    exact absurd bar' noBar

/-- In a group, a text that is a pattern by itself is read up to the closing bracket where it is
read at all. -/
theorem alternatives_past {s : List Char} {c : Compiled} (parsed : Pattern.parse s = .ok c)
    (enough : 4 * (s.length + (')' :: rest).length) + 2 ≤ fuel)
    (h : alternatives fuel false .none g ⟨p, s ++ ')' :: rest⟩ = .ok Q) :
    ∃ q, Q.reader = ⟨q, ')' :: rest⟩ := by
  obtain ⟨P, whole, read, complete, rfl⟩ := parse_eq_ok_iff.mp parsed
  rw [← within_start] at h
  have ended : P.reader.within p (')' :: rest) = ⟨P.reader.position + p, ')' :: rest⟩ := by
    rw [Reader.within, complete.rest, List.nil_append]
  have next : (P.reader.within p (')' :: rest)).next = some (.plain ')') := by
    rw [ended, next_plain (by decide)]
  obtain ⟨-, node', g', -, -, again⟩ := (reads_of_parse whole read).follow_accepted (.closing rest)
    whole verbose_none next False.elim (by rwa [length_within]) (.inr ⟨Q, h⟩)
  rw [h] at again
  cases again
  exact ⟨_, ended⟩

section
variable {before after : List (List Char)} {b a : List CharTest} {target : List Char}
  {c ct cb : Compiled}

/-- How the pattern of a unit that is no alternation begins to be read. -/
theorem unitPattern_read {before target after : List Char}
    (parsed : Pattern.parse (unitPattern before target after) = .ok c)
    (single : ∀ x y, c.root ≠ .alt x y) : ∃ fuel first,
      4 * (unitPattern before target after).length + 1 = fuel
      ∧ sequence (fuel + 2) true .none .start []
          ⟨0, inGroup beforeGroup before ++ (target ++ inGroup afterGroup after)⟩ = .ok first
      ∧ first.reader.next ≠ some (.plain '|') ∧ c.root = first.node := by
  obtain ⟨P, -, read, -, rfl⟩ := parse_eq_ok_iff.mp parsed
  rw [alternatives_eq] at read
  obtain ⟨first, one, others⟩ := bind_eq_ok_iff.mp read
  obtain ⟨noBar, node⟩ := readOthers_single others single
  refine ⟨_, first, rfl, ?_, noBar, node⟩
  rw [← one, unitPattern, List.append_assoc]

/-- The group before is the first item of every match. -/
theorem root_front (hb : List.Forall₂ ReadsAs before b) {after : List Char}
    (targetParsed : Pattern.parse target = .ok ct)
    (parsed : Pattern.parse (unitPattern before.flatten target after) = .ok c)
    (single : ∀ x y, c.root ≠ .alt x y) :
    ∃ more, c.root = joinItems (more ++ [(.group 1 (joinItems (itemsOf b)), .plain)]) := by
  obtain ⟨fuel, first, hf, read, noBar, root⟩ := unitPattern_read parsed single
  obtain ⟨_, whole, -⟩ := parse_eq_ok_iff.mp targetParsed
  have bracketed := bracketed_inGroup afterGroup after
  have middle : Whole (target ++ inGroup afterGroup after) := whole_append whole bracketed
  rw [length_unitPattern] at hf
  rw [sequence_group isGroupName_before (forall₂_item hb) rfl (by rw [length_inGroup] at hf; omega)
    middle, plainItems_char] at read
  obtain ⟨last, g', fuel', q, enough, read⟩ := sequence_past targetParsed bracketed
    (List.cons_ne_nil _ _) (by omega) read noBar
  rw [← List.append_nil (inGroup afterGroup after)] at enough read
  obtain ⟨more, node⟩ := inGroup_keeps isGroupName_after enough read
  exact ⟨more ++ last, by rw [root, node, List.append_assoc]; rfl⟩

/-- The group after is the last item of every match. -/
theorem root_back (ha : List.Forall₂ ReadsAs after a) {before : List Char}
    (beforeParsed : Pattern.parse before = .ok cb) (targetParsed : Pattern.parse target = .ok ct)
    (parsed : Pattern.parse (unitPattern before target after.flatten) = .ok c)
    (single : ∀ x y, c.root ≠ .alt x y) :
    ∃ n more, c.root = joinItems ((.group n (joinItems (itemsOf a)), .plain) :: more) := by
  obtain ⟨fuel, first, hf, read, noBar, root⟩ := unitPattern_read parsed single
  obtain ⟨_, whole, -⟩ := parse_eq_ok_iff.mp targetParsed
  have bracketed := bracketed_inGroup afterGroup after.flatten
  have middle : Whole (target ++ inGroup afterGroup after.flatten) := whole_append whole bracketed
  rw [length_unitPattern, length_inGroup] at hf
  obtain ⟨-, body, r', g₁, inner, next, advance, read, -⟩ := inGroup_read isGroupName_before read
  obtain ⟨q, rfl⟩ : ∃ q, r' = ⟨q, target ++ inGroup afterGroup after.flatten⟩ := by
    obtain ⟨q, stop⟩ := alternatives_past beforeParsed
      (by rw [List.length_cons, List.length_append]; omega) inner
    rw [stop, advance_plain (by decide) middle] at advance
    cases advance
    exact ⟨_, rfl⟩
  obtain ⟨last, g', fuel', q', enough, read⟩ := sequence_past targetParsed bracketed
    (List.cons_ne_nil _ _) (by omega) read noBar
  rw [← List.append_nil (inGroup afterGroup after.flatten)] at enough read
  rw [List.length_append, length_inGroup] at enough
  obtain ⟨fuel', rfl⟩ : ∃ n, fuel' = n + 2 := ⟨fuel' - 2, by omega⟩
  have new := (inGroup_read isGroupName_after read).1
  rw [sequence_group isGroupName_after (forall₂_item ha) new (by omega) whole_nil, plainItems_char,
    sequence_end] at read
  cases read
  exact ⟨_, _, root⟩

end

/-! ## Compiled sound changes -/

/-- Whether what is written with categories and characters occurs anywhere in a text. -/
def occursIn (t : Categories) (side text : List Char) : Bool :=
  text.tails.any (fits (side.map t.admits))

/-- The pattern of the target of one substitution: a paired sound change takes the letter at its
place for a category, any other one takes all of them. -/
def targetPattern (t : Categories) (s : SoundChange) (index : Nat) : Except Error (List Char) := do
  let paired ← t.referenced s.replacement
  if paired.isEmpty then t.expand s.target else t.resolve s.target index true

/-- The replacement of one substitution: a paired sound change takes the grapheme at its place for a
category. -/
def replacementText (t : Categories) (s : SoundChange) (index : Nat) :
    Except Error (List Char) := do
  let paired ← t.referenced s.replacement
  if paired.isEmpty then
    match s.replacement with
    | .text replacement => .ok replacement.toList
    | _ => .error .wrongKind
  else t.resolve s.replacement index false

/-- A side of an environment that is written with categories and characters that mean nothing in a
pattern. -/
def PlainSide (t : Categories) (side : List Char) : Prop :=
  ∀ sign ∈ side, t.has sign = true ∨ isOperator sign = false

variable {t : Categories} {s : SoundChange} {limits : Limits} {before after : String}
  {subs : Pipeline} {sub : Substitution} {target replacement : List Char} {i : Nat}

/-- Every substitution of a sound change is one for the target and the replacement at its place. -/
theorem compile_parts (sides : sidesOf s.environment = .ok (before, after))
    (compiled : s.compile t limits = .ok subs) (h : subs[i]? = some sub) :
    ∃ target replacement, targetPattern t s i = .ok target
      ∧ replacementText t s i = .ok replacement
      ∧ substitutionFor t s before after target replacement limits = .ok sub := by
  rw [compile, sides, ok_bind] at compiled
  obtain ⟨paired, mentioned, compiled⟩ := bind_eq_ok_iff.mp compiled
  rw [targetPattern, replacementText, mentioned, ok_bind, ok_bind]
  split at compiled
  · rename_i single
    rw [if_pos single, if_pos single]
    obtain ⟨target, expanded, compiled⟩ := bind_eq_ok_iff.mp compiled
    split at compiled
    · rename_i replacement literal
      obtain ⟨first, substituted, compiled⟩ := bind_eq_ok_iff.mp compiled
      cases compiled
      obtain ⟨rfl, rfl⟩ : i = 0 ∧ first = sub := by
        cases i with
        | zero => exact ⟨rfl, Option.some.inj h⟩
        | succ i => cases h
      exact ⟨target, replacement.toList, expanded, by simp only [literal], substituted⟩
    · cases compiled
  · rename_i pairs
    rw [if_neg pairs, if_neg pairs]
    obtain ⟨keys, -, compiled⟩ := bind_eq_ok_iff.mp compiled
    split at compiled
    · cases compiled
    · obtain ⟨place, hp, compiled⟩ := of_mapM_eq_ok compiled h
      obtain ⟨_, rfl⟩ := List.getElem?_eq_some_iff.mp hp
      rw [List.getElem_range] at compiled
      obtain ⟨target, resolved, compiled⟩ := bind_eq_ok_iff.mp compiled
      obtain ⟨replacement, resolved', compiled⟩ := bind_eq_ok_iff.mp compiled
      exact ⟨target, replacement, resolved, resolved', compiled⟩

/-- Every substitution of a sound change is one for the pattern of the target at its place. -/
theorem compile_eq_ok (sides : sidesOf s.environment = .ok (before, after))
    (compiled : s.compile t limits = .ok subs) (h : subs[i]? = some sub) :
    ∃ target replacement, targetPattern t s i = .ok target
      ∧ substitutionFor t s before after target replacement limits = .ok sub := by
  obtain ⟨target, replacement, found, -, substituted⟩ := compile_parts sides compiled h
  exact ⟨target, replacement, found, substituted⟩

/-- A substitution holds the pattern of its target between the patterns of both sides. -/
theorem substitutionFor_eq_ok
    (h : substitutionFor t s before after target replacement limits = .ok sub) :
    ∃ b a, t.expand (.text before) = .ok b ∧ t.expand (.text after) = .ok a
      ∧ Pattern.parse (unitPattern b target a) = .ok sub.compiled := by
  obtain ⟨b, hb, h⟩ := bind_eq_ok_iff.mp h
  obtain ⟨a, ha, h⟩ := bind_eq_ok_iff.mp h
  obtain ⟨parsed, -⟩ := Substitution.ofTexts_eq_ok_iff.mp h
  rw [String.toList_ofList] at parsed
  exact ⟨b, a, hb, ha, parsed⟩

/-- What does not occur in a text fits at none of its places. -/
theorem fits_of_not_occursIn {side text : List Char} (h : occursIn t side text = false) (p : Nat) :
    fits (side.map t.admits) (text.drop p) = false := by
  refine Bool.eq_false_iff.mpr fun fit => ?_
  rw [occursIn, List.any_eq_false] at h
  exact h _ ((List.mem_tails _ _).mpr (List.drop_suffix p text)) fit

/-- The group of a side that does not occur in a text matches nowhere in it. -/
theorem run_absent {side text : List Char} (h : occursIn t side text = false) (n : Nat)
    (k : Continuation) :
    (Node.group n (joinItems (itemsOf (side.map t.test)))).run text.toArray k = refuse := by
  refine run_group_misfit (fun p => ?_) n k
  rw [List.map_map, Function.comp_def]
  simp only [Categories.holds_test]
  exact fits_of_not_occursIn h p

/-- Whether what a text is expanded to is a pattern by itself. -/
def standsAlone : Except Error (List Char) → Bool
  | .ok pattern => (Pattern.parse pattern).isOk
  | .error _ => false

theorem standsAlone_ok : standsAlone (.ok target) = true ↔ ∃ c, Pattern.parse target = .ok c := by
  rw [standsAlone]
  cases Pattern.parse target <;> simp [Except.isOk, Except.toBool]

/-- Whether a bar outside all groups parts a pattern of several items. -/
def parted (c : Compiled) : Bool :=
  match c.root with
  | .alt _ _ => true
  | _ => false

theorem root_ne_alt {c : Compiled} (h : parted c = false) (x y : Node) : c.root ≠ .alt x y := by
  intro root
  rw [parted, root] at h
  cases h

/-- A side of an environment, written plainly, that a text is without. -/
structure Absent (t : Categories) (side text : List Char) : Prop where
  plain : PlainSide t side
  absent : occursIn t side text = false

/-- Where the pattern is not parted by a bar, a sound change leaves a text alone that is without a
plain side of its environment. What stands before has to be a pattern by itself if the other side is
the plain one. -/
theorem applyOnce_outside (filled : t.Filled) (lettered : t.Lettered)
    (sides : sidesOf s.environment = .ok (before, after))
    (compiled : s.compile t limits = .ok subs) (h : subs[i]? = some sub)
    (valid : standsAlone (targetPattern t s i) = true) (whole : parted sub.compiled = false)
    {text : String} (missing : Absent t before.toList text.toList
      ∨ Absent t after.toList text.toList ∧ standsAlone (t.expand (.text before)) = true) :
    sub.applyOnce text = text := by
  obtain ⟨target, replacement, found, substituted⟩ := compile_eq_ok sides compiled h
  obtain ⟨b, a, hb, ha, parsed⟩ := substitutionFor_eq_ok substituted
  rw [found] at valid
  obtain ⟨ct, targetParsed⟩ := standsAlone_ok.mp valid
  have reads : ∀ side : List Char, PlainSide t side →
      List.Forall₂ ReadsAs (side.map t.pattern) (side.map t.test) :=
    fun side plain => forall₂_map fun c hc =>
      Categories.readsAs_pattern filled lettered (plain c hc)
  have unmatched : ∀ k, sub.compiled.root.run text.toList.toArray k = refuse := by
    intro k
    rcases missing with missing | ⟨missing, alone⟩
    · rw [Categories.expand_text lettered] at hb
      cases hb
      obtain ⟨more, root⟩ := root_front (reads _ missing.plain) targetParsed parsed
        (root_ne_alt whole)
      rw [root, run_joinItems, runItems_append, runItems_cons, run_absent missing.absent]
      rfl
    · rw [hb] at alone
      obtain ⟨cb, beforeParsed⟩ := standsAlone_ok.mp alone
      rw [Categories.expand_text lettered] at ha
      cases ha
      obtain ⟨n, more, root⟩ := root_back (reads _ missing.plain) beforeParsed targetParsed parsed
        (root_ne_alt whole)
      rw [root, run_joinItems, runItems_cons, run_absent missing.absent, runItems_refuse]
  rw [Substitution.applyOnce, replace_unmatched unmatched, String.ofList_toList]

/-- Stops behind a vowel, in a group of their own. -/
def stopsRule : SoundChange := ⟨.text "(?:p|t)+", .text "x", "V_"⟩

theorem applyOnce_outside_stops : ∃ sub, stopsRule.compile specialLetters .default = .ok [sub]
    ∧ parted sub.compiled = false ∧ sub.applyOnce "bpt" = "bpt" ∧ sub.applyOnce "apt" = "ax" := by
  have facts : ((stopsRule.compile specialLetters .default).toOption.map
      (List.map fun sub => (parted sub.compiled, sub.applyOnce "apt"))) = some [(false, "ax")] := by
    decide +kernel
  obtain ⟨sub, compiled, whole, fires⟩ : ∃ sub,
      stopsRule.compile specialLetters .default = .ok [sub]
        ∧ parted sub.compiled = false ∧ sub.applyOnce "apt" = "ax" := by
    cases h : stopsRule.compile specialLetters .default with
    | error e =>
      rw [h] at facts
      cases facts
    | ok subs =>
      rw [h] at facts
      simp only [Except.toOption, Option.map_some, Option.some.injEq, List.map_eq_singleton_iff,
        Prod.mk.injEq] at facts
      obtain ⟨sub, rfl, whole, fires⟩ := facts
      exact ⟨sub, rfl, whole, fires⟩
  have vowel : PlainSide specialLetters "V".toList := fun sign hs => by
    simp only [show "V".toList = ['V'] from rfl, List.mem_singleton] at hs
    exact .inl (hs ▸ rfl)
  refine ⟨sub, compiled, whole, ?_, fires⟩
  exact applyOnce_outside (by decide) (by decide) rfl compiled (i := 0) rfl (by decide +kernel)
    whole (.inl ⟨vowel, by decide +kernel⟩)

/-- A bar of the target outside its groups parts the whole pattern, and its second part does not ask
for what stands before. -/
theorem applyOnce_parted :
    (compile .empty ⟨.text "a|b", .text "z", "x_y"⟩ .default).toOption.map
        (List.map (·.applyOnce "by")) = some ["zy"]
      ∧ occursIn .empty ['x'] ['b', 'y'] = false := by
  decide +kernel

end Neogrammar.SoundChange
