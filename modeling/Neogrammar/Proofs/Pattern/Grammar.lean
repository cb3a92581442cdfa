import Neogrammar.Proofs.Pattern.Items
import Neogrammar.Proofs.Pattern.Openings

/-!
# How a pattern is read, without a count of steps

What the alternatives and the items of a pattern are read as is told by a relation with one rule for
each way of going on, instead of by functions that count their steps. With enough steps the
functions follow the rules; what every reading keeps is then shown rule by rule.
-/
namespace Neogrammar.Pattern

open Reader

/-! ## Groups -/

/-- A reference by name. -/
def readReference (m : Modes) (g : Groups) (name : String) (r : Reader) : Except Refusal Node :=
  match g.names.lookup name with
  | none => r.fail (.unknownGroupName name) (name.length + 1)
  | some n =>
    if !g.isClosed n then r.fail .openGroup (name.length + 1)
    else do
      g.checkBehind n r
      pure (.reference n m.fold)

/-- The group that a branch depends on, and the groups after it is mentioned. -/
def readBranch (g : Groups) (name : String) (r : Reader) : Except Refusal (Nat × Groups) := do
  let (n, g) ← branchGroup g name r
  g.checkBehind n r
  pure (n, g)

/-- What a group does with its body: the modes and groups that its body is read with, and what
comes of its body and of the groups after that. -/
structure Enclosure where
  modes : Modes
  groups : Groups
  finish : Node → Groups → Node × Groups

/-- The groups that have a body. -/
def enclosure? (m : Modes) (g : Groups) (r : Reader) : Opening → Option (Except Refusal Enclosure)
  | .ahead negated => some (.ok ⟨m, g, fun body g => (.ahead negated body, g)⟩)
  | .behind negated => some (.ok ⟨m, { g with behind := g.behind.or (some g.count) },
      fun body g' =>
        (.behind negated (body.width g'.widthOf) body, { g' with behind := g.behind })⟩)
  | .atomic => some (.ok ⟨m, g, fun body g => (.atomic body, g)⟩)
  | .scoped on off => some (.ok ⟨m.within on off, g, fun body g => (body, g)⟩)
  | .capture name => some do
    let (n, g) ← g.opened name r
    pure ⟨m, g, fun body g => (.group n body, g.close n (body.width g.widthOf))⟩
  | _ => none

/-- What comes after an opening bracket. -/
def Opens (r : Reader) (kind : Opening) (r₂ : Reader) : Prop :=
  ∃ r₁, r.next = some (.plain '(') ∧ r.advance = .ok r₁ ∧ opening r₁ = .ok (kind, r₂)

section
variable {fuel : Nat} {top : Bool} {m : Modes} {g : Groups} {items : Items} {r r₁ r₂ : Reader}
  {kind : Opening}

theorem sequence_opens (next : r.next = some (.plain '(')) (advance : r.advance = .ok r₁) :
    sequence (fuel + 1) top m g items r = bracket fuel top m g items r₁ := by
  have blank : isPatternBlank '(' = false := by decide
  rw [sequence, next]
  simp [advance, blank]

theorem sequence_opens_error {e : Refusal} (next : r.next = some (.plain '('))
    (advance : r.advance = .error e) : sequence (fuel + 1) top m g items r = .error e := by
  rw [sequence, next]
  simp [advance, bind, Except.bind]

theorem opens_of_sequence (next : r.next = some (.plain '('))
    (h : sequence (fuel + 2) top m g items r = .ok P) : ∃ kind r₂, Opens r kind r₂ := by
  have blank : isPatternBlank '(' = false := by decide
  rw [sequence, next] at h
  simp only [reduceCtorEq, blank, Bool.and_false] at h
  obtain ⟨r₁, advance, h⟩ := bind_eq_ok_iff.mp h
  have bracketed : bracket (fuel + 1) top m g items r₁ = .ok P := by simpa using h
  rw [bracket] at bracketed
  obtain ⟨⟨kind, r₂⟩, opened, -⟩ := bind_eq_ok_iff.mp bracketed
  exact ⟨kind, r₂, r₁, next, advance, opened⟩

theorem sequence_comment (h : Opens r .comment r₂) :
    sequence (fuel + 2) top m g items r = sequence fuel top m g items r₂ := by
  obtain ⟨r₁, next, advance, opened⟩ := h
  rw [sequence_opens next advance, bracket, opened]
  rfl

theorem sequence_modes {on : List Char} (h : Opens r (.modes on) r₂) :
    ∃ back, ∀ fuel top items, sequence (fuel + 2) top m g items r =
      if !top || !items.isEmpty then r₂.fail .lateFlags back
      else sequence fuel top (on.foldl (fun m c => m.switch true c) m) g items r₂ := by
  obtain ⟨r₁, next, advance, opened⟩ := h
  refine ⟨r₂.position - (r₁.position - 1), fun fuel top items => ?_⟩
  rw [sequence_opens next advance, bracket, opened]
  rfl

theorem sequence_reference {name : String} (h : Opens r (.reference name) r₂) :
    sequence (fuel + 2) top m g items r = readReference m g name r₂ >>= fun node =>
      sequence fuel top m g ((node, .plain) :: items) r₂ := by
  obtain ⟨r₁, next, advance, opened⟩ := h
  rw [sequence_opens next advance, bracket, opened, readReference]
  simp only [ok_bind]
  cases g.names.lookup name with
  | none => rfl
  | some n =>
    simp only [ite_bind, bind_assoc]
    rfl

theorem sequence_branch {name : String} (h : Opens r (.branch name) r₂) :
    ∃ start, ∀ fuel top items, sequence (fuel + 2) top m g items r =
      readBranch g name r₂ >>= fun x =>
      sequence fuel false m x.2 [] r₂ >>= fun yes =>
      yes.reader.accept '|' >>= fun bar =>
        if bar.1 then sequence fuel false m yes.groups [] bar.2 >>= fun no =>
          if no.reader.sees '|' then no.reader.fail .thirdBranch 0
          else closing start no.reader >>= fun r =>
            sequence fuel top m no.groups ((.branch x.1 yes.node no.node, .plain) :: items) r
        else closing start bar.2 >>= fun r =>
          sequence fuel top m yes.groups ((.branch x.1 yes.node .empty, .plain) :: items) r := by
  obtain ⟨r₁, next, advance, opened⟩ := h
  refine ⟨r₁.position - 1, fun fuel top items => ?_⟩
  rw [sequence_opens next advance, bracket, opened, readBranch]
  simp only [ok_bind, bind_assoc, pure_eq_ok]
  cases branchGroup g name r₂ with
  | error e => rfl
  | ok x =>
    simp only [ok_bind]
    cases x.2.checkBehind x.1 r₂ with
    | error e => rfl
    | ok y =>
      simp only [ok_bind]
      cases sequence fuel false m x.2 [] r₂ with
      | error e => rfl
      | ok yes =>
        simp only [ok_bind]
        rcases yes.reader.accept '|' with e | ⟨bar, r₃⟩
        · rfl
        · cases bar <;> rfl

theorem sequence_enclosed {x : Except Refusal Enclosure} (h : Opens r kind r₂)
    (encloses : enclosure? m g r₂ kind = some x) :
    ∃ start, ∀ fuel top items, sequence (fuel + 2) top m g items r = x >>= fun e =>
      alternatives fuel false e.modes e.groups r₂ >>= fun body =>
      closing start body.reader >>= fun r =>
        sequence fuel top m (e.finish body.node body.groups).2
          (((e.finish body.node body.groups).1, .plain) :: items) r := by
  obtain ⟨r₁, next, advance, opened⟩ := h
  refine ⟨r₁.position - 1, fun fuel top items => ?_⟩
  rw [sequence_opens next advance, bracket, opened]
  cases kind <;> cases encloses <;> try rfl
  simp only [ok_bind, bind_assoc, pure_eq_ok]

theorem enclosure?_eq_none (h : enclosure? m g r₂ kind = none) :
    kind = .comment ∨ (∃ on, kind = .modes on) ∨ (∃ name, kind = .reference name)
      ∨ ∃ name, kind = .branch name := by
  cases kind <;> simp [enclosure?] at h ⊢

/-- The alternatives behind the first one. -/
def readOthers (fuel : Nat) (first : Parsed) : Except Refusal Parsed :=
  first.reader.accept '|' >>= fun bar =>
    if bar.1 then alternatives fuel false first.modes first.groups bar.2 >>= fun rest =>
      .ok { rest with node := .alt first.node rest.node }
    else .ok { first with reader := bar.2 }

theorem alternatives_eq : alternatives (fuel + 1) top m g r =
    sequence fuel top m g [] r >>= readOthers fuel := by
  rw [alternatives]
  rfl

/-- What is accepted where modes for the whole pattern are refused is read in the same way where
they are not. -/
theorem sequence_top (h : sequence fuel false m g items r = .ok P) :
    sequence fuel true m g items r = .ok P := by
  induction fuel using Nat.strongRecOn generalizing m g items r with
  | ind fuel ih =>
  by_cases stops : Stops r
  · rwa [sequence_stop stops] at h ⊢
  cases fuel with
  | zero => rwa [sequence] at h ⊢
  | succ fuel =>
  rcases next_of_not_stops stops with next | ⟨symbol, next, isItem⟩
  case inr =>
    rw [sequence_item next isItem] at h ⊢
    exact bind_eq_ok_mono h fun r₁ h => bind_eq_ok_mono h fun x h =>
      ih fuel (Nat.lt_succ_self fuel) h
  cases fuel with
  | zero =>
    cases advance : r.advance with
    | error e => rwa [sequence_opens_error next advance] at h ⊢
    | ok r₁ => rwa [sequence_opens next advance, Pattern.bracket] at h ⊢
  | succ fuel =>
  have fewer : ∀ {m g items r}, sequence fuel false m g items r = .ok P →
      sequence fuel true m g items r = .ok P := fun h => ih fuel (by omega) h
  obtain ⟨kind, r₂, opens⟩ := opens_of_sequence next h
  cases encloses : enclosure? m g r₂ kind with
  | some x =>
    obtain ⟨start, eq⟩ := sequence_enclosed opens encloses
    rw [eq] at h ⊢
    exact bind_eq_ok_mono h fun e h => bind_eq_ok_mono h fun body h =>
      bind_eq_ok_mono h fun r h => fewer h
  | none =>
    rcases enclosure?_eq_none encloses with rfl | ⟨on, rfl⟩ | ⟨name, rfl⟩ | ⟨name, rfl⟩
    · rw [sequence_comment opens] at h ⊢
      exact fewer h
    · obtain ⟨back, eq⟩ := sequence_modes (m := m) (g := g) opens
      rw [eq] at h
      cases h
    · rw [sequence_reference opens] at h ⊢
      exact bind_eq_ok_mono h fun node h => fewer h
    · obtain ⟨start, eq⟩ := sequence_branch (m := m) (g := g) opens
      rw [eq] at h ⊢
      refine bind_eq_ok_mono h fun x h => bind_eq_ok_mono h fun yes h =>
        bind_eq_ok_mono h fun bar h => ?_
      split at h
      · rename_i second
        rw [if_pos second]
        refine bind_eq_ok_mono h fun no h => ?_
        split at h
        · cases h
        · rename_i third
          rw [if_neg third]
          exact bind_eq_ok_mono h fun r h => fewer h
      · rename_i second
        rw [if_neg second]
        exact bind_eq_ok_mono h fun r h => fewer h

theorem alternatives_top (h : alternatives (fuel + 1) false m g r = .ok P) :
    alternatives (fuel + 1) true m g r = .ok P := by
  rw [alternatives_eq] at h ⊢
  obtain ⟨first, one, others⟩ := bind_eq_ok_iff.mp h
  rw [sequence_top one, ok_bind, others]

end

/-! ## The relation -/

/-- Which part of a pattern is read: some alternatives, or what follows some items, given latest
first. -/
inductive Part where
  | alternatives
  | items (so : Items)

/-- How the parts of a pattern are read: from modes, groups and a reader to what is left behind. -/
inductive Reads : Part → Bool → Modes → Groups → Reader → Parsed → Prop where
  /-- The items end here. -/
  | stop {top m g so r} (stops : Stops r) : Reads (.items so) top m g r ⟨joinItems so, m, g, r⟩
  /-- A symbol with what belongs to it. -/
  | item {top m g so so' r r₁ r₂ P symbol edit} (next : r.next = some symbol)
      (isItem : symbol.IsItem) (advance : r.advance = .ok r₁)
      (read : readEdit m g symbol r₁ = .ok (edit, r₂)) (fits : edit.apply so = some so')
      (rest : Reads (.items so') top m g r₂ P) : Reads (.items so) top m g r P
  | comment {top m g so r r₂ P} (opens : Opens r .comment r₂)
      (rest : Reads (.items so) top m g r₂ P) : Reads (.items so) top m g r P
  /-- Modes for the whole pattern, at its very beginning. -/
  | modes {m g r r₂ P on} (opens : Opens r (.modes on) r₂)
      (rest : Reads (.items []) true (on.foldl (fun m c => m.switch true c) m) g r₂ P) :
      Reads (.items []) true m g r P
  | reference {top m g so r r₂ P name node} (opens : Opens r (.reference name) r₂)
      (read : readReference m g name r₂ = .ok node)
      (rest : Reads (.items ((node, .plain) :: so)) top m g r₂ P) : Reads (.items so) top m g r P
  /-- A branch with one side. -/
  | branchOne {top m g g₁ so r r₂ r₃ P name n yes} (opens : Opens r (.branch name) r₂)
      (read : readBranch g name r₂ = .ok (n, g₁)) (first : Reads (.items []) false m g₁ r₂ yes)
      (next : yes.reader.next = some (.plain ')')) (advance : yes.reader.advance = .ok r₃)
      (rest : Reads (.items ((.branch n yes.node .empty, .plain) :: so)) top m yes.groups r₃ P) :
      Reads (.items so) top m g r P
  /-- A branch with two sides. -/
  | branchTwo {top m g g₁ so r r₂ r₃ r₄ P name n yes no} (opens : Opens r (.branch name) r₂)
      (read : readBranch g name r₂ = .ok (n, g₁)) (first : Reads (.items []) false m g₁ r₂ yes)
      (bar : yes.reader.next = some (.plain '|')) (past : yes.reader.advance = .ok r₃)
      (second : Reads (.items []) false m yes.groups r₃ no)
      (next : no.reader.next = some (.plain ')')) (advance : no.reader.advance = .ok r₄)
      (rest : Reads (.items ((.branch n yes.node no.node, .plain) :: so)) top m no.groups r₄ P) :
      Reads (.items so) top m g r P
  /-- Any other group. -/
  | enclosed {top m g so r r₂ r₃ P kind e body} (opens : Opens r kind r₂)
      (encloses : enclosure? m g r₂ kind = some (.ok e))
      (inner : Reads .alternatives false e.modes e.groups r₂ body)
      (next : body.reader.next = some (.plain ')')) (advance : body.reader.advance = .ok r₃)
      (rest : Reads (.items (((e.finish body.node body.groups).1, .plain) :: so)) top m
        (e.finish body.node body.groups).2 r₃ P) : Reads (.items so) top m g r P
  /-- The last alternative. -/
  | single {top m g r P} (one : Reads (.items []) top m g r P)
      (noBar : P.reader.next ≠ some (.plain '|')) : Reads .alternatives top m g r P
  /-- An alternative with others behind it. -/
  | more {top m g r r₁ first rest} (one : Reads (.items []) top m g r first)
      (bar : first.reader.next = some (.plain '|')) (past : first.reader.advance = .ok r₁)
      (others : Reads .alternatives false first.modes first.groups r₁ rest) :
      Reads .alternatives top m g r { rest with node := .alt first.node rest.node }

variable {part : Part} {top : Bool} {m : Modes} {g g₁ : Groups} {so : Items} {r r₁ r₂ : Reader}
  {P : Parsed} {kind : Opening} {symbol : Symbol} {edit : Edit}

theorem Opens.onward (h : Opens r kind r₂) (whole : Whole r.rest) : Onward r r₂ := by
  obtain ⟨r₁, next, advance, opened⟩ := h
  exact .step next advance ((opening_alike (whole_of_advance whole next advance)).of_eq_ok opened).1

/-- At least the bracket itself is stepped over. -/
theorem Opens.shorter (h : Opens r kind r₂) (whole : Whole r.rest) :
    r₂.rest.length < r.rest.length := by
  obtain ⟨r₁, next, advance, opened⟩ := h
  have whole₁ := whole_of_advance whole next advance
  have := length_of_advance whole next advance
  have := ((opening_alike whole₁).of_eq_ok opened).1.length_le whole₁
  omega

/-! ## What every reading keeps -/

theorem readBranch_groups {name : String} {n : Nat} (h : readBranch g name r = .ok (n, g₁)) :
    g₁.widths = g.widths ∧ g₁.names = g.names ∧ g.mentions <+: g₁.mentions := by
  obtain ⟨⟨n', g'⟩, found, h⟩ := bind_eq_ok_iff.mp h
  obtain ⟨⟨⟩, -, h⟩ := bind_eq_ok_iff.mp h
  cases h
  unfold branchGroup at found
  split at found
  · split at found <;> cases found
    exact ⟨rfl, rfl, List.prefix_rfl⟩
  · split at found
    · split at found
      · cases found
      split at found
      · cases found
      cases found
      split
      · exact ⟨rfl, rfl, List.prefix_rfl⟩
      · exact ⟨rfl, rfl, List.prefix_append ..⟩
    · cases found

/-- A body is read with at least the groups before it, and closing it loses none. -/
theorem enclosure?_groups {e : Enclosure} (h : enclosure? m g r kind = some (.ok e)) :
    g.count ≤ e.groups.count ∧ g.names <+: e.groups.names ∧ e.groups.mentions = g.mentions
      ∧ ∀ body g', (e.finish body g').2.count = g'.count ∧ (e.finish body g').2.names = g'.names
        ∧ (e.finish body g').2.mentions = g'.mentions := by
  cases kind with
  | capture name =>
    obtain ⟨⟨n, g'⟩, opened, h⟩ := bind_eq_ok_iff.mp (Option.some.inj h)
    cases h
    have grown : g.count ≤ g'.count ∧ g.names <+: g'.names ∧ g'.mentions = g.mentions := by
      cases name with
      | none =>
        cases opened
        exact ⟨by simp [Groups.count], List.prefix_rfl, rfl⟩
      | some name =>
        unfold Groups.opened at opened
        dsimp only at opened
        split at opened
        · cases opened
        · cases opened
          exact ⟨by simp [Groups.count], List.prefix_append .., rfl⟩
    exact ⟨grown.1, grown.2.1, grown.2.2,
      fun body g' => ⟨by simp [Groups.close, Groups.count], rfl, rfl⟩⟩
  | ahead _ | behind _ | atomic | «scoped» _ _ =>
    cases h
    exact ⟨Nat.le_refl _, List.prefix_rfl, rfl, fun _ _ => ⟨rfl, rfl, rfl⟩⟩
  | _ => cases h

/-- Reading goes onward to where the part stops, and no group is lost on the way. -/
structure Grown (g : Groups) (r : Reader) (P : Parsed) : Prop where
  onward : Onward r P.reader
  stops : Stops P.reader
  count : g.count ≤ P.groups.count
  names : g.names <+: P.groups.names
  mentions : g.mentions <+: P.groups.mentions

theorem Reads.grown (h : Reads part top m g r P) (whole : Whole r.rest) : Grown g r P := by
  induction h with
  | stop stops => exact ⟨.refl _, stops, Nat.le_refl _, List.prefix_rfl, List.prefix_rfl⟩
  | item next _ advance read _ _ ih =>
    have whole₁ := whole_of_advance whole next advance
    have onward := readEdit_onward whole₁ read
    have after := ih (onward.whole whole₁)
    exact { after with onward := .step next advance (onward.trans after.onward) }
  | comment opens _ ih | modes opens _ ih | reference opens _ _ ih =>
    have onward := opens.onward whole
    have after := ih (onward.whole whole)
    exact { after with onward := onward.trans after.onward }
  | branchOne opens read _ next advance _ ihFirst ihRest =>
    have onward := opens.onward whole
    have yes := ihFirst (onward.whole whole)
    have whole₁ := yes.onward.whole (onward.whole whole)
    have after := ihRest (whole_of_advance whole₁ next advance)
    obtain ⟨widths, names, mentions⟩ := readBranch_groups read
    constructor
    case onward => exact onward.trans (yes.onward.trans (.step next advance after.onward))
    case stops => exact after.stops
    case count =>
      have := Nat.le_trans yes.count after.count
      rwa [Groups.count, widths] at this
    case names =>
      have := yes.names.trans after.names
      rwa [names] at this
    case mentions => exact mentions.trans (yes.mentions.trans after.mentions)
  | branchTwo opens read _ bar past _ next advance _ ihFirst ihSecond ihRest =>
    have onward := opens.onward whole
    have yes := ihFirst (onward.whole whole)
    have whole₁ := whole_of_advance (yes.onward.whole (onward.whole whole)) bar past
    have no := ihSecond whole₁
    have after := ihRest (whole_of_advance (no.onward.whole whole₁) next advance)
    obtain ⟨widths, names, mentions⟩ := readBranch_groups read
    constructor
    case onward =>
      exact onward.trans (yes.onward.trans (.step bar past
        (no.onward.trans (.step next advance after.onward))))
    case stops => exact after.stops
    case count =>
      have := Nat.le_trans yes.count (Nat.le_trans no.count after.count)
      rwa [Groups.count, widths] at this
    case names =>
      have := yes.names.trans (no.names.trans after.names)
      rwa [names] at this
    case mentions =>
      exact mentions.trans (yes.mentions.trans (no.mentions.trans after.mentions))
  | enclosed opens encloses _ next advance _ ihInner ihRest =>
    have onward := opens.onward whole
    have body := ihInner (onward.whole whole)
    have whole₁ := body.onward.whole (onward.whole whole)
    have after := ihRest (whole_of_advance whole₁ next advance)
    obtain ⟨count, names, mentions, finish⟩ := enclosure?_groups encloses
    obtain ⟨count', names', mentions'⟩ := finish _ _
    constructor
    case onward => exact onward.trans (body.onward.trans (.step next advance after.onward))
    case stops => exact after.stops
    case count => exact Nat.le_trans count (Nat.le_trans body.count (count' ▸ after.count))
    case names => exact names.trans (body.names.trans (names' ▸ after.names))
    case mentions => exact mentions ▸ body.mentions.trans (mentions' ▸ after.mentions)
  | single _ _ ih => exact ih whole
  | more _ bar past _ ihOne ihOthers =>
    have first := ihOne whole
    have after := ihOthers (whole_of_advance (first.onward.whole whole) bar past)
    exact ⟨first.onward.trans (.step bar past after.onward), after.stops,
      Nat.le_trans first.count after.count, first.names.trans after.names,
      first.mentions.trans after.mentions⟩

/-- Behind the symbol that stopped a reading there is less to read. -/
theorem Grown.past (grown : Grown g r P) (whole : Whole r.rest)
    (next : P.reader.next = some symbol) (advance : P.reader.advance = .ok r₁) :
    Whole P.reader.rest ∧ Whole r₁.rest ∧ r₁.rest.length < r.rest.length := by
  have whole₁ := grown.onward.whole whole
  have short := grown.onward.length_le whole
  have less := length_of_advance whole₁ next advance
  exact ⟨whole₁, whole_of_advance whole₁ next advance, by omega⟩

/-! ## Enough steps -/

/-- With fewer steps than `fuel`, but enough for what is left, the functions follow the rules. Every
symbol may take four steps: into its group, into the alternatives there, into the first of them and
to its first item. -/
structure ReadsBelow (fuel : Nat) : Prop where
  items : ∀ {n top m g so r P}, n < fuel → Whole r.rest → 4 * r.rest.length + 1 ≤ n →
    sequence n top m g so r = .ok P → Reads (.items so) top m g r P
  parts : ∀ {n top m g r P}, n < fuel → Whole r.rest → 4 * r.rest.length + 2 ≤ n →
    alternatives n top m g r = .ok P → Reads .alternatives top m g r P

section
variable {fuel : Nat} (below : ReadsBelow (fuel + 2)) (whole : Whole r.rest)
  (enough : 4 * r.rest.length + 1 ≤ fuel + 2)
include below whole enough

theorem reads_item (next : r.next = some symbol) (isItem : symbol.IsItem)
    (h : sequence (fuel + 2) top m g so r = .ok P) : Reads (.items so) top m g r P := by
  rw [sequence_item next isItem] at h
  obtain ⟨r₁, advance, h⟩ := bind_eq_ok_iff.mp h
  obtain ⟨⟨so', r₂⟩, read, h⟩ := bind_eq_ok_iff.mp h
  obtain ⟨edit, read, fits⟩ := readItem_eq_ok_iff.mp read
  have whole₁ := whole_of_advance whole next advance
  have onward := readEdit_onward whole₁ read
  have := length_of_advance whole next advance
  have := onward.length_le whole₁
  exact .item next isItem advance read fits
    (below.items (by omega) (onward.whole whole₁) (by omega) h)

/-- A group with a body. -/
theorem reads_enclosed {x : Except Refusal Enclosure} (opens : Opens r kind r₂)
    (encloses : enclosure? m g r₂ kind = some x)
    (h : sequence (fuel + 2) top m g so r = .ok P) : Reads (.items so) top m g r P := by
  have whole₂ := (opens.onward whole).whole whole
  have shorter := opens.shorter whole
  obtain ⟨start, eq⟩ := sequence_enclosed opens encloses
  rw [eq] at h
  obtain ⟨e, rfl, within⟩ := bind_eq_ok_iff.mp h
  obtain ⟨body, inner, h⟩ := bind_eq_ok_iff.mp within
  obtain ⟨r₃, closes, h⟩ := bind_eq_ok_iff.mp h
  obtain ⟨last, past⟩ := closing_eq_ok closes
  have reads := below.parts (by omega) whole₂ (by omega) inner
  obtain ⟨-, whole₃, less⟩ := (reads.grown whole₂).past whole₂ last past
  exact .enclosed opens encloses reads last past (below.items (by omega) whole₃ (by omega) h)

/-- A branch: its first side, and the second one if there is a bar. -/
theorem reads_branch {name : String} (opens : Opens r (.branch name) r₂)
    (h : sequence (fuel + 2) top m g so r = .ok P) : Reads (.items so) top m g r P := by
  have whole₂ := (opens.onward whole).whole whole
  have shorter := opens.shorter whole
  obtain ⟨start, eq⟩ := sequence_branch (m := m) (g := g) opens
  rw [eq] at h
  obtain ⟨⟨n, g₁⟩, read, h⟩ := bind_eq_ok_iff.mp h
  obtain ⟨yes, first, h⟩ := bind_eq_ok_iff.mp h
  obtain ⟨⟨bar, r₃⟩, accepted, h⟩ := bind_eq_ok_iff.mp h
  have reads := below.items (by omega) whole₂ (by omega) first
  have grown := reads.grown whole₂
  cases bar with
  | true =>
    obtain ⟨next₃, past⟩ := accept_true accepted
    obtain ⟨-, whole₄, less⟩ := grown.past whole₂ next₃ past
    obtain ⟨no, second, h⟩ := bind_eq_ok_iff.mp h
    dsimp only at h
    split at h
    · cases h
    obtain ⟨r₄, closes, h⟩ := bind_eq_ok_iff.mp h
    obtain ⟨last, past'⟩ := closing_eq_ok closes
    have reads' := below.items (by omega) whole₄ (by omega) second
    obtain ⟨-, whole₅, less'⟩ := (reads'.grown whole₄).past whole₄ last past'
    exact .branchTwo opens read reads next₃ past reads' last past'
      (below.items (by omega) whole₅ (by omega) h)
  | false =>
    obtain ⟨-, rfl⟩ := accept_false accepted
    obtain ⟨r₄, closes, h⟩ := bind_eq_ok_iff.mp h
    obtain ⟨last, past⟩ := closing_eq_ok closes
    obtain ⟨-, whole₄, less⟩ := grown.past whole₂ last past
    exact .branchOne opens read reads last past (below.items (by omega) whole₄ (by omega) h)

/-- Whatever an opening bracket begins. -/
theorem reads_bracket (next : r.next = some (.plain '('))
    (h : sequence (fuel + 2) top m g so r = .ok P) : Reads (.items so) top m g r P := by
  obtain ⟨kind, r₂, opens⟩ := opens_of_sequence next h
  have whole₂ := (opens.onward whole).whole whole
  have shorter := opens.shorter whole
  have rest {top m g so} (h : sequence fuel top m g so r₂ = .ok P) :
      Reads (.items so) top m g r₂ P := below.items (by omega) whole₂ (by omega) h
  cases encloses : enclosure? m g r₂ kind with
  | some x => exact reads_enclosed below whole enough opens encloses h
  | none =>
    rcases enclosure?_eq_none encloses with rfl | ⟨on, rfl⟩ | ⟨name, rfl⟩ | ⟨name, rfl⟩
    · rw [sequence_comment opens] at h
      exact .comment opens (rest h)
    · obtain ⟨back, eq⟩ := sequence_modes (m := m) (g := g) opens
      rw [eq] at h
      split at h
      · cases h
      · rename_i first
        obtain ⟨rfl, rfl⟩ : top = true ∧ so = [] := by simpa using first
        exact .modes opens (rest h)
    · rw [sequence_reference opens] at h
      obtain ⟨node, read, h⟩ := bind_eq_ok_iff.mp h
      exact .reference opens read (rest h)
    · exact reads_branch below whole enough opens h

end

theorem reads_below (fuel : Nat) : ReadsBelow fuel := by
  induction fuel with
  | zero =>
    exact ⟨fun less => absurd less (Nat.not_lt_zero _), fun less => absurd less (Nat.not_lt_zero _)⟩
  | succ fuel below =>
  constructor
  case items =>
    intro n top m g so r P less whole enough h
    rcases Nat.lt_succ_iff_lt_or_eq.mp less with earlier | rfl
    · exact below.items earlier whole enough h
    by_cases stops : Stops r
    · rw [sequence_stop stops] at h
      cases h
      exact .stop stops
    have nonempty := length_pos_of_not_stops stops
    obtain ⟨fuel, rfl⟩ : ∃ k, n = k + 2 := ⟨n - 2, by omega⟩
    rcases next_of_not_stops stops with next | ⟨symbol, next, isItem⟩
    · exact reads_bracket below whole enough next h
    · exact reads_item below whole enough next isItem h
  case parts =>
    intro n top m g r P less whole enough h
    rcases Nat.lt_succ_iff_lt_or_eq.mp less with earlier | rfl
    · exact below.parts earlier whole enough h
    obtain ⟨fuel, rfl⟩ : ∃ k, n = k + 1 := ⟨n - 1, by omega⟩
    rw [alternatives_eq] at h
    obtain ⟨first, one, h⟩ := bind_eq_ok_iff.mp h
    obtain ⟨⟨bar, r'⟩, accepted, h⟩ := bind_eq_ok_iff.mp h
    have reads := below.items (Nat.lt_succ_self fuel) whole (by omega) one
    cases bar with
    | true =>
      obtain ⟨rest, others, h⟩ := bind_eq_ok_iff.mp h
      cases h
      obtain ⟨next, past⟩ := accept_true accepted
      obtain ⟨-, whole₁, less⟩ := (reads.grown whole).past whole next past
      exact .more reads next past
        (below.parts (Nat.lt_succ_self fuel) whole₁ (by omega) others)
    | false =>
      cases h
      obtain ⟨noBar, rfl⟩ := accept_false accepted
      exact .single reads noBar

theorem reads_of_sequence {fuel : Nat} (whole : Whole r.rest)
    (enough : 4 * r.rest.length + 1 ≤ fuel) (h : sequence fuel top m g so r = .ok P) :
    Reads (.items so) top m g r P :=
  (reads_below (fuel + 1)).items (Nat.lt_succ_self fuel) whole enough h

theorem reads_of_alternatives {fuel : Nat} (whole : Whole r.rest)
    (enough : 4 * r.rest.length + 2 ≤ fuel) (h : alternatives fuel top m g r = .ok P) :
    Reads .alternatives top m g r P :=
  (reads_below (fuel + 1)).parts (Nat.lt_succ_self fuel) whole enough h

/-- Once there is an item behind them, earlier items stay as they are. -/
theorem Reads.keeps (h : Reads (.items so) top m g r P) {own base : Items}
    (split : so = own ++ base) (nonempty : own ≠ []) :
    ∃ more, P.node = joinItems (more ++ base) := by
  generalize part_eq : Part.items so = part at h
  induction h generalizing so own with
  | @stop _ _ _ so' _ _ =>
    cases part_eq
    exact ⟨own, by rw [split]⟩
  | item _ _ _ _ fits _ ih =>
    cases part_eq
    rw [split] at fits
    obtain ⟨own', nonempty', -, split'⟩ := Edit.apply_append nonempty fits
    exact ih split' nonempty' rfl
  | comment _ _ ih =>
    cases part_eq
    exact ih split nonempty rfl
  | modes _ _ _ =>
    cases part_eq
    exact absurd (List.append_eq_nil_iff.mp split.symm).1 nonempty
  | reference _ _ _ ih =>
    cases part_eq
    exact ih (by rw [split]; rfl) (List.cons_ne_nil _ own) rfl
  | branchOne _ _ _ _ _ _ _ ih =>
    cases part_eq
    exact ih (by rw [split]; rfl) (List.cons_ne_nil _ own) rfl
  | branchTwo _ _ _ _ _ _ _ _ _ _ _ ih =>
    cases part_eq
    exact ih (by rw [split]; rfl) (List.cons_ne_nil _ own) rfl
  | enclosed _ _ _ _ _ _ _ ih =>
    cases part_eq
    exact ih (by rw [split]; rfl) (List.cons_ne_nil _ own) rfl
  | single | more => cases part_eq

/-! ## Whole patterns -/

/-- What was read makes a pattern: nothing is left of the text, and no fault shows that only the
whole of it tells. -/
structure Parsed.Complete (P : Parsed) : Prop where
  alphabet : (P.modes.ascii && P.modes.unicode) = false
  rest : P.reader.rest = []
  mentions : danglingMention? P.groups = none
  defect : P.node.defect? P.modes.noRepeats = none

/-- The pattern made of what was read. -/
def Parsed.compiled (P : Parsed) : Compiled := ⟨P.node, P.groups.count - 1, P.groups.names⟩

/-- A pattern is accepted if its alternatives are read and make a pattern. -/
theorem parse_eq_ok_iff {s : List Char} {c : Compiled} :
    parse s = .ok c ↔ ∃ P, Whole s
      ∧ alternatives (4 * s.length + 4) true .none .start ⟨0, s⟩ = .ok P
      ∧ P.Complete ∧ c = P.compiled := by
  constructor
  · intro h
    obtain ⟨r, start, h⟩ := bind_eq_ok_iff.mp h
    obtain ⟨rfl, whole⟩ := settle_eq_ok start
    obtain ⟨P, read, h⟩ := bind_eq_ok_iff.mp h
    split at h
    · cases h
    rename_i alphabet
    split at h
    · cases h
    rename_i rest
    split at h
    · cases h
    rename_i mentions
    split at h
    · cases h
    rename_i defect
    cases h
    exact ⟨P, whole, read, ⟨by simpa using alphabet, by simpa using rest, mentions, defect⟩, rfl⟩
  · rintro ⟨P, whole, read, complete, rfl⟩
    rw [parse, Reader.start, settle_whole whole, ok_bind, read, ok_bind]
    simp only [complete.alphabet, complete.rest, complete.mentions, complete.defect,
      List.isEmpty_nil, Bool.not_true, Bool.false_eq_true, ↓reduceIte]
    rfl

theorem reads_of_parse {s : List Char} {P : Parsed} (whole : Whole s)
    (h : alternatives (4 * s.length + 4) top .none .start ⟨0, s⟩ = .ok P) :
    Reads .alternatives top .none .start ⟨0, s⟩ P :=
  reads_of_alternatives whole (Nat.le_add_right _ 2) h

end Neogrammar.Pattern
