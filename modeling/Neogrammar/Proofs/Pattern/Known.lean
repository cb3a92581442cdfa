import Neogrammar.Proofs.Pattern.Grammar
import Neogrammar.Proofs.Pattern.Reading

/-!
# The groups that a pattern refers to

Every group that an accepted pattern has or refers to is one of its groups. While a pattern is read,
a branch may already depend on a group that is yet to come; such a group is kept as mentioned, and
the whole pattern is refused if it never comes.
-/
namespace Neogrammar.Pattern

open Reader

namespace Node

/-- What holds of every group that a pattern has or refers to. -/
def EachGroup (p : Nat → Prop) : Node → Prop
  | seq a b => a.EachGroup p ∧ b.EachGroup p
  | alt a b => a.EachGroup p ∧ b.EachGroup p
  | group n body => p n ∧ body.EachGroup p
  | .repeat _ _ _ body => body.EachGroup p
  | ahead _ body => body.EachGroup p
  | behind _ _ body => body.EachGroup p
  | atomic body => body.EachGroup p
  | reference n _ => p n
  | branch n yes no => p n ∧ yes.EachGroup p ∧ no.EachGroup p
  | _ => True

theorem EachGroup.mono {p q : Nat → Prop} (le : ∀ n, p n → q n) {node : Node}
    (h : node.EachGroup p) : node.EachGroup q := by
  induction node with
  | empty | char | anchor => trivial
  | seq a b iha ihb | alt a b iha ihb => exact ⟨iha h.1, ihb h.2⟩
  | group n body ih => exact ⟨le n h.1, ih h.2⟩
  | «repeat» greed low high body ih => exact ih h
  | ahead negated body ih => exact ih h
  | behind negated width body ih => exact ih h
  | atomic body ih => exact ih h
  | reference n fold => exact le n h
  | branch n yes no ihy ihn => exact ⟨le n h.1, ihy h.2.1, ihn h.2.2⟩

end Node

/-- What holds of every group that some items have or refer to. -/
def Items.EachGroup (p : Nat → Prop) (items : Items) : Prop := ∀ item ∈ items, item.1.EachGroup p

variable {m : Modes} {g g₁ : Groups} {r r₁ r₂ : Reader} {P : Parsed} {p q : Nat → Prop}
  {items items' : Items} {node : Node}

theorem Items.EachGroup.mono (le : ∀ n, p n → q n) (h : items.EachGroup p) : items.EachGroup q :=
  fun item hi => (h item hi).mono le

theorem Items.EachGroup.cons {kind : ItemKind} (first : node.EachGroup p) (h : items.EachGroup p) :
    Items.EachGroup p ((node, kind) :: items) := by
  intro item hi
  rcases List.mem_cons.mp hi with rfl | hi
  · exact first
  · exact h item hi

theorem eachGroup_joinItems (h : items.EachGroup p) : (joinItems items).EachGroup p := by
  induction items using List.reverseRecOn with
  | nil => trivial
  | append_singleton items item ih =>
    have front : item.1.EachGroup p := h item (by simp)
    cases items with
    | nil => exact front
    | cons last items =>
      rw [joinItems_append (List.cons_ne_nil _ _)]
      exact ⟨front, ih fun other ho => h other (List.mem_append_left _ ho)⟩

namespace Groups

/-- A group that is there, or that a branch depends on. -/
def Knows (g : Groups) (n : Nat) : Prop := n < g.count ∨ ∃ mention ∈ g.mentions, mention.1 = n

/-- Every name is that of a group which is there. -/
def Named (g : Groups) : Prop := ∀ entry ∈ g.names, entry.2 < g.count

theorem Named.lt {name : String} {n : Nat} (named : g.Named) (h : g.names.lookup name = some n) :
    n < g.count := by
  obtain ⟨before, after, split, -⟩ := List.lookup_eq_some_iff.mp h
  exact named (name, n) (by simp [split])

theorem Knows.kept {n : Nat} (h : g.Knows n) (count : g.count ≤ g₁.count)
    (mentions : g.mentions <+: g₁.mentions) : g₁.Knows n := by
  rcases h with lt | ⟨mention, hm, rfl⟩
  · exact .inl (Nat.lt_of_lt_of_le lt count)
  · exact .inr ⟨mention, mentions.subset hm, rfl⟩

end Groups

theorem Grown.knows (h : Grown g r P) : ∀ n, g.Knows n → P.groups.Knows n :=
  fun _ known => known.kept h.count h.mentions

/-! ## Parts of a reading -/

/-- What holds of every group in what an edit adds. -/
def Edit.EachGroup (p : Nat → Prop) : Edit → Prop
  | push node _ => node.EachGroup p
  | _ => True

theorem Edit.Groupless.eachGroup {edit : Edit} (h : edit.Groupless) : edit.EachGroup p := by
  cases edit with
  | push node kind => rcases h with ⟨test, rfl⟩ | ⟨place, rfl⟩ <;> trivial
  | _ => trivial

theorem readEdit_eachGroup {symbol : Symbol} {edit : Edit} (whole : Whole r.rest)
    (h : readEdit m g symbol r = .ok (edit, r₁)) : edit.EachGroup g.Knows := by
  cases symbol with
  | plain c => exact (readEdit_groupless h).eachGroup
  | escaped c =>
    obtain ⟨⟨node, kind, r'⟩, escape, h⟩ := bind_eq_ok_iff.mp h
    cases h
    cases number : startsNumber c with
    | false =>
      rcases itemEscape_tests number escape with ⟨-, test, rfl⟩ | ⟨-, place, rfl⟩ <;> trivial
    | true =>
      rcases (itemEscape_numbered whole number escape).2.2.1 with ⟨test, rfl⟩ | ⟨n, fold, rfl, lt⟩
      · trivial
      · exact .inl lt

theorem Edit.EachGroup.apply {edit : Edit} (h : edit.EachGroup p) (each : items.EachGroup p)
    (fits : edit.apply items = some items') : items'.EachGroup p := by
  match edit, items, fits with
  | .keep, items, fits =>
    cases fits
    exact each
  | .push node kind, items, fits =>
    cases fits
    exact each.cons h
  | .wrap greed bounds, (node, .plain) :: rest, fits =>
    cases fits
    exact Items.EachGroup.cons (each _ List.mem_cons_self) fun item hi => each item (by simp [hi])

theorem readReference_eachGroup {name : String} (named : g.Named)
    (h : readReference m g name r = .ok node) : node.EachGroup g.Knows := by
  unfold readReference at h
  split at h
  · cases h
  · rename_i n found
    split at h
    · cases h
    · obtain ⟨_, -, h⟩ := bind_eq_ok_iff.mp h
      cases h
      exact .inl (named.lt found)

/-- A branch leaves the groups as they are; it may mention one more. -/
theorem readBranch_known {name : String} {n : Nat} (named : g.Named)
    (h : readBranch g name r = .ok (n, g₁)) : g₁.Named ∧ ∀ n, g.Knows n → g₁.Knows n := by
  obtain ⟨widths, names, mentions⟩ := readBranch_groups h
  have count : g₁.count = g.count := congrArg List.length widths
  refine ⟨fun entry he => ?_, fun n known => known.kept (Nat.le_of_eq count.symm) mentions⟩
  rw [count]
  exact named entry (names ▸ he)

theorem readBranch_knows {name : String} {n : Nat} (named : g.Named)
    (h : readBranch g name r = .ok (n, g₁)) : g₁.Knows n := by
  obtain ⟨⟨n', g'⟩, found, h⟩ := bind_eq_ok_iff.mp h
  obtain ⟨⟨⟩, -, h⟩ := bind_eq_ok_iff.mp h
  cases h
  unfold branchGroup at found
  split at found
  · split at found
    · rename_i known
      cases found
      exact .inl (named.lt known)
    · cases found
  · split at found
    · split at found
      · cases found
      split at found
      · cases found
      cases found
      split
      · rename_i old
        obtain ⟨mention, hm, eq⟩ := List.any_eq_true.mp old
        exact .inr ⟨mention, hm, by simpa using eq⟩
      · exact .inr ⟨_, List.mem_append_right _ (List.mem_singleton.mpr rfl), rfl⟩
    · cases found

/-- The groups around a body, and what becomes of the body. -/
theorem enclosure?_known {kind : Opening} {e : Enclosure} (named : g.Named)
    (h : enclosure? m g r kind = some (.ok e)) :
    e.groups.Named ∧ ∀ body g', e.groups.count ≤ g'.count → body.EachGroup g'.Knows →
      (e.finish body g').1.EachGroup g'.Knows := by
  cases kind with
  | capture name =>
    obtain ⟨⟨n, g'⟩, opened, h⟩ := bind_eq_ok_iff.mp (Option.some.inj h)
    cases h
    obtain ⟨named', lt⟩ : g'.Named ∧ n < g'.count := by
      cases name with
      | none =>
        cases opened
        refine ⟨fun entry he => ?_, by simp [Groups.count]⟩
        have := named entry he
        simp only [Groups.count, List.length_append, List.length_singleton] at this ⊢
        omega
      | some name =>
        unfold Groups.opened at opened
        dsimp only at opened
        split at opened
        · cases opened
        · cases opened
          refine ⟨fun entry he => ?_, by simp [Groups.count]⟩
          simp only [Groups.count, List.length_append, List.length_singleton]
          rcases List.mem_append.mp he with he | he
          · have := named entry he
            rw [Groups.count] at this
            omega
          · rw [List.mem_singleton.mp he]
            exact Nat.lt_succ_self _
    exact ⟨named', fun body g' le each => ⟨.inl (Nat.lt_of_lt_of_le lt le), each⟩⟩
  | ahead _ | behind _ | atomic | «scoped» _ _ =>
    cases h
    exact ⟨named, fun body g' _ each => each⟩
  | _ => cases h

/-! ## Whole readings -/

/-- What holds of every group in the items before a part. -/
def Part.EachGroup (p : Nat → Prop) : Part → Prop
  | .alternatives => True
  | .items so => so.EachGroup p

theorem no_items : Part.EachGroup p (.items []) := fun _ h => absurd h List.not_mem_nil

/-- Reading knows every group that it refers to. -/
theorem Reads.eachGroup {part : Part} {top : Bool} (h : Reads part top m g r P)
    (whole : Whole r.rest) (named : g.Named) (before : part.EachGroup g.Knows) :
    P.groups.Named ∧ P.node.EachGroup P.groups.Knows := by
  induction h with
  | stop stops => exact ⟨named, eachGroup_joinItems before⟩
  | item next _ advance read fits _ ih =>
    have whole₁ := whole_of_advance whole next advance
    exact ih ((readEdit_onward whole₁ read).whole whole₁) named
      ((readEdit_eachGroup whole₁ read).apply before fits)
  | comment opens _ ih | modes opens _ ih =>
    exact ih ((opens.onward whole).whole whole) named before
  | reference opens read _ ih =>
    exact ih ((opens.onward whole).whole whole) named
      (before.cons (readReference_eachGroup named read))
  | branchOne opens read first next advance rest ihFirst ihRest =>
    have whole₂ := (opens.onward whole).whole whole
    have inside := first.grown whole₂
    have whole₃ := (inside.past whole₂ next advance).2.1
    obtain ⟨named₁, known₁⟩ := readBranch_known named read
    obtain ⟨named₂, yes⟩ := ihFirst whole₂ named₁ no_items
    have branch := inside.knows _ (readBranch_knows named read)
    have earlier := before.mono fun n known => inside.knows n (known₁ n known)
    exact ihRest whole₃ named₂ (earlier.cons ⟨branch, yes, trivial⟩)
  | branchTwo opens read first bar past second next advance rest ihFirst ihSecond ihRest =>
    have whole₂ := (opens.onward whole).whole whole
    have inside := first.grown whole₂
    have whole₃ := (inside.past whole₂ bar past).2.1
    have inside' := second.grown whole₃
    have whole₄ := (inside'.past whole₃ next advance).2.1
    obtain ⟨named₁, known₁⟩ := readBranch_known named read
    obtain ⟨named₂, yes⟩ := ihFirst whole₂ named₁ no_items
    obtain ⟨named₃, no⟩ := ihSecond whole₃ named₂ no_items
    have branch := inside'.knows _ (inside.knows _ (readBranch_knows named read))
    have earlier := before.mono fun n known => inside'.knows n (inside.knows n (known₁ n known))
    exact ihRest whole₄ named₃ (earlier.cons ⟨branch, yes.mono inside'.knows, no⟩)
  | @enclosed top m g so r r₂ r₃ P kind e body opens encloses inner next advance rest ihInner
      ihRest =>
    have whole₂ := (opens.onward whole).whole whole
    have inside := inner.grown whole₂
    have whole₃ := (inside.past whole₂ next advance).2.1
    obtain ⟨count, -, mentions, finish⟩ := enclosure?_groups encloses
    obtain ⟨named₁, each⟩ := enclosure?_known named encloses
    obtain ⟨named₂, known₂⟩ := ihInner whole₂ named₁ trivial
    obtain ⟨count', names', mentions'⟩ := finish body.node body.groups
    have into : ∀ n, g.Knows n → e.groups.Knows n :=
      fun n known => known.kept count (mentions ▸ List.prefix_rfl)
    have out : ∀ n, body.groups.Knows n → (e.finish body.node body.groups).2.Knows n :=
      fun n known => known.kept (Nat.le_of_eq count'.symm) (mentions' ▸ List.prefix_rfl)
    have named₃ : (e.finish body.node body.groups).2.Named := fun entry he => by
      rw [count']
      exact named₂ entry (names' ▸ he)
    have earlier := before.mono fun n known => out n (inside.knows n (into n known))
    exact ihRest whole₃ named₃
      (earlier.cons ((each body.node body.groups inside.count known₂).mono out))
  | single _ _ ih => exact ih whole named no_items
  | more one bar past others ihOne ihOthers =>
    have grown := one.grown whole
    have whole₁ := (grown.past whole bar past).2.1
    obtain ⟨named₁, first⟩ := ihOne whole named no_items
    obtain ⟨named₂, rest⟩ := ihOthers whole₁ named₁ trivial
    exact ⟨named₂, first.mono (others.grown whole₁).knows, rest⟩

theorem lt_of_knows {n : Nat} (mentions : danglingMention? g = none) (h : g.Knows n) :
    n < g.count := by
  rcases h with lt | ⟨mention, hm, rfl⟩
  · exact lt
  · have here := List.find?_eq_none.mp mentions mention hm
    simpa using here

/-- Every group that an accepted pattern has or refers to is one of its groups. -/
theorem parse_eachGroup {s : List Char} {c : Compiled} (h : parse s = .ok c) :
    c.root.EachGroup (· < c.groups + 1) := by
  obtain ⟨P, whole, read, complete, rfl⟩ := parse_eq_ok_iff.mp h
  have reads := reads_of_parse whole read
  have grown := reads.grown whole
  have count : 0 < P.groups.count := grown.count
  have each := (reads.eachGroup whole (fun _ he => absurd he List.not_mem_nil) trivial).2
  refine each.mono fun n known => ?_
  have lt := lt_of_knows complete.mentions known
  show n < P.groups.count - 1 + 1
  omega

/-- Every name of an accepted pattern is that of one of its groups. -/
theorem le_groups_of_parse {s : List Char} {c : Compiled} {name : String} {n : Nat}
    (h : parse s = .ok c) (named : c.names.lookup name = some n) : n ≤ c.groups := by
  obtain ⟨P, whole, read, -, rfl⟩ := parse_eq_ok_iff.mp h
  have start : Groups.start.Named := fun _ he => absurd he List.not_mem_nil
  have lt := ((reads_of_parse whole read).eachGroup whole start trivial).1.lt named
  show n ≤ P.groups.count - 1
  omega

end Neogrammar.Pattern
