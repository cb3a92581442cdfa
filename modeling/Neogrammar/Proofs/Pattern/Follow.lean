import Mathlib.Data.List.Forall2
import Neogrammar.Proofs.Pattern.Renumber

/-!
# Reading the same text behind another group

A text that is read on its own is read in the same way where a bracket follows it and other items
come before it. The groups before it change what its groups are numbered, and so what a reference by
number means. Where such references are left out, reading is followed exactly: the tree comes out
with other numbers. Where they are not, reading is only followed to its end, as long as it is not
refused on the way.
-/
namespace Neogrammar.Pattern

open Reader

/-- An outcome that is not refused where reading is not followed exactly. -/
def Goes {α : Type} (exact : Prop) (x : Except Refusal α) : Prop := exact ∨ ∃ a, x = .ok a

variable {exact : Prop} {front : String} {m : Modes} {g g₁ g' : Groups} {r r₁ r₂ r' : Reader}
  {P : Parsed} {d : Nat} {suffix : List Char}

theorem Goes.first {α β : Type} {x : Except Refusal α} {f : α → Except Refusal β}
    (h : Goes exact (x >>= f)) : Goes exact x := by
  rcases h with h | ⟨b, h⟩
  · exact .inl h
  · obtain ⟨a, ha, -⟩ := bind_eq_ok_iff.mp h
    exact .inr ⟨a, ha⟩

theorem Goes.ok {α : Type} {x : Except Refusal α} (h : Goes exact x) (loose : ¬exact) :
    ∃ a, x = .ok a := h.resolve_left loose

/-- The groups of the longer text: those of the text behind one more. -/
def GroupsFollow (exact : Prop) (front : String) (g g' : Groups) : Prop :=
  exact → 0 < g.count ∧ g' = g.shifted front

/-- The tree in the longer text: the tree with later numbers. -/
def NodeFollows (exact : Prop) (node node' : Node) : Prop := exact → node' = node.renumber later

/-- An item of the longer text: one of the same kind. -/
def ItemFollows (exact : Prop) (item item' : Node × ItemKind) : Prop :=
  item'.2 = item.2 ∧ NodeFollows exact item.1 item'.1

/-- No group before has the name. -/
def Fresh (front : String) (g : Groups) : Prop := g.names.lookup front = none

theorem Fresh.before (fresh : Fresh front g₁) (h : g.names <+: g₁.names) : Fresh front g := by
  obtain ⟨more, eq⟩ := h
  unfold Fresh at fresh ⊢
  rw [← eq, List.lookup_append, Option.or_eq_none_iff] at fresh
  exact fresh.1

theorem Fresh.ne {name : String} {n : Nat} (fresh : Fresh front g)
    (h : g.names.lookup name = some n) : name ≠ front := by
  rintro rfl
  rw [fresh] at h
  cases h

/-- Items that follow are joined to a tree that follows. -/
theorem joinItems_follows {items items' : Items}
    (h : List.Forall₂ (ItemFollows exact) items items') :
    NodeFollows exact (joinItems items) (joinItems items') := by
  intro he
  have same : items' = items.map fun item => (item.1.renumber later, item.2) := by
    induction h with
    | nil => rfl
    | cons first _ ih => rw [List.map_cons, ih, ← first.1, ← first.2 he]
  rw [same, renumber_joinItems]

/-! ## Parts of a reading -/

theorem readReference_follow {name : String} {node : Node} (follow : GroupsFollow exact front g g')
    (fresh : exact → Fresh front g) (h : readReference m g name r = .ok node)
    (goes : Goes exact (readReference m g' name r')) :
    ∃ node', readReference m g' name r' = .ok node' ∧ NodeFollows exact node node' := by
  by_cases he : exact
  · obtain ⟨-, rfl⟩ := follow he
    unfold readReference at h ⊢
    cases found : g.names.lookup name with
    | none =>
      rw [found] at h
      cases h
    | some n =>
      simp only [found] at h
      split at h
      · cases h
      rename_i closed
      obtain ⟨⟨⟩, check, h⟩ := bind_eq_ok_iff.mp h
      cases h
      refine ⟨.reference (later n) m.fold, ?_, fun _ => rfl⟩
      rw [Groups.lookup_shifted ((fresh he).ne found), found]
      simp only [Option.map_some, Groups.isClosed_shifted, closed, Bool.false_eq_true, ↓reduceIte,
        Groups.checkBehind_shifted check]
      rfl
  · obtain ⟨node', h'⟩ := goes.ok he
    exact ⟨node', h', fun h => absurd h he⟩

theorem readBranch_follow {name : String} {n : Nat} (follow : GroupsFollow exact front g g')
    (fresh : exact → Fresh front g) (byName : exact → Text.isIdentifier name.toList = true)
    (h : readBranch g name r = .ok (n, g₁)) (goes : Goes exact (readBranch g' name r')) :
    ∃ n' g₁', readBranch g' name r' = .ok (n', g₁') ∧ (exact → n' = later n)
      ∧ GroupsFollow exact front g₁ g₁' := by
  by_cases he : exact
  · obtain ⟨nonempty, rfl⟩ := follow he
    obtain ⟨⟨n', g₂⟩, found, h⟩ := bind_eq_ok_iff.mp h
    obtain ⟨⟨⟩, check, h⟩ := bind_eq_ok_iff.mp h
    cases h
    rw [branchGroup, if_pos (byName he)] at found
    cases known : g.names.lookup name with
    | none =>
      rw [known] at found
      cases found
    | some k =>
      rw [known] at found
      cases found
      refine ⟨later n, g.shifted front, ?_, fun _ => rfl, fun _ => ⟨nonempty, rfl⟩⟩
      rw [readBranch, branchGroup, if_pos (byName he),
        Groups.lookup_shifted ((fresh he).ne known), known]
      simp only [Option.map_some, ok_bind, Groups.checkBehind_shifted check]
      rfl
  · obtain ⟨⟨n', g₁'⟩, h'⟩ := goes.ok he
    exact ⟨n', g₁', h', fun h => absurd h he, fun h => absurd h he⟩

/-- How the enclosure of a group follows: its body is read with groups that follow, and what it
makes of a body that follows does so too. -/
structure EnclosureFollows (exact : Prop) (front : String) (e e' : Enclosure) : Prop where
  modes : e'.modes = e.modes
  groups : GroupsFollow exact front e.groups e'.groups
  node : ∀ {body body' h h'}, NodeFollows exact body body' → GroupsFollow exact front h h' →
    NodeFollows exact (e.finish body h).1 (e'.finish body' h').1
  after : ∀ {body body' h h'}, NodeFollows exact body body' → GroupsFollow exact front h h' →
    GroupsFollow exact front (e.finish body h).2 (e'.finish body' h').2

theorem width_follows {body body' : Node} {h h' : Groups} (he : exact)
    (node : NodeFollows exact body body') (groups : GroupsFollow exact front h h') :
    body'.width h'.widthOf = body.width h.widthOf := by
  rw [node he, (groups he).2]
  exact Node.width_renumber (Groups.widthOf_shifted h) body

/-- Whether a group has a body, and its modes, are told by how it opens. -/
theorem enclosure?_modes {kind : Opening} {e : Enclosure} {x : Except Refusal Enclosure}
    (h : enclosure? m g r kind = some (.ok e)) (h' : enclosure? m g' r' kind = some x)
    {e' : Enclosure} (hx : x = .ok e') : e'.modes = e.modes := by
  subst hx
  cases kind with
  | capture name =>
    obtain ⟨⟨n, g₁⟩, -, h⟩ := bind_eq_ok_iff.mp (Option.some.inj h)
    obtain ⟨⟨n', g₁'⟩, -, h'⟩ := bind_eq_ok_iff.mp (Option.some.inj h')
    cases h
    cases h'
    rfl
  | ahead _ | behind _ | atomic | «scoped» _ _ =>
    cases h
    cases h'
    rfl
  | _ => cases h

theorem enclosure_follow {kind : Opening} {e : Enclosure} (follow : GroupsFollow exact front g g')
    (fresh : exact → Fresh front e.groups) (h : enclosure? m g r kind = some (.ok e)) :
    ∃ x, enclosure? m g' r' kind = some x ∧ (Goes exact x → ∃ e', x = .ok e'
      ∧ EnclosureFollows exact front e e') := by
  obtain ⟨x, hx⟩ : ∃ x, enclosure? m g' r' kind = some x := by
    cases kind <;> first | exact ⟨_, rfl⟩ | cases h
  refine ⟨x, hx, fun goes => ?_⟩
  by_cases he : exact
  · obtain ⟨nonempty, rfl⟩ := follow he
    have wider : 0 < e.groups.count := Nat.lt_of_lt_of_le nonempty (enclosure?_groups h).1
    cases kind with
    | capture name =>
      obtain ⟨⟨n, g₁⟩, opened, h⟩ := bind_eq_ok_iff.mp (Option.some.inj h)
      cases h
      have other : name ≠ some front := by
        rintro rfl
        unfold Groups.opened at opened
        dsimp only at opened
        split at opened
        · cases opened
        · cases opened
          have := fresh he
          simp [Fresh, List.lookup_append] at this
      cases hx
      refine ⟨_, by rw [Groups.opened_shifted nonempty other opened r']; rfl, ?_⟩
      constructor
      case modes => rfl
      case groups => exact fun _ => ⟨wider, rfl⟩
      case node => exact fun node _ he => by rw [node he]; rfl
      case after =>
        intro body body' h h' node groups he
        refine ⟨by simpa [Groups.close, Groups.count] using (groups he).1, ?_⟩
        dsimp only
        rw [Groups.close_shifted, width_follows he node groups, (groups he).2]
    | behind negated =>
      cases h
      cases hx
      refine ⟨_, rfl, ?_⟩
      constructor
      case modes => rfl
      case groups =>
        refine fun _ => ⟨wider, ?_⟩
        dsimp only
        rw [Groups.count_shifted nonempty]
        simp only [Groups.shifted]
        cases g.behind <;> rfl
      case node =>
        intro body body' h h' node groups he
        dsimp only
        rw [width_follows he node groups, node he]
        rfl
      case after =>
        intro body body' h h' node groups he
        refine ⟨(groups he).1, ?_⟩
        rw [(groups he).2]
        rfl
    | «scoped» on off =>
      cases h
      cases hx
      exact ⟨_, rfl, rfl, follow, fun node _ => node, fun _ groups => groups⟩
    | ahead negated | atomic =>
      cases h
      cases hx
      exact ⟨_, rfl, rfl, follow, fun node _ he => by rw [node he]; rfl, fun _ groups => groups⟩
    | _ => cases h
  · obtain ⟨e', rfl⟩ := goes.ok he
    exact ⟨e', rfl, enclosure?_modes h hx rfl, fun h => absurd h he,
      fun _ _ h => absurd h he, fun _ _ h => absurd h he⟩

/-- What an item does in the longer text: it takes the same place, and adds what follows. -/
def EditFollows (exact : Prop) (edit edit' : Edit) : Prop :=
  edit.Like edit' ∧ (exact → edit' = edit ∧ edit.Groupless)

theorem renumber_groupless {node : Node}
    (h : (∃ test, node = .char test) ∨ ∃ place, node = .anchor place) (f : Nat → Nat) :
    node.renumber f = node := by
  rcases h with ⟨test, rfl⟩ | ⟨place, rfl⟩ <;> rfl

/-- Behind other items an edit does the same, as it found an item of its own to repeat. -/
theorem EditFollows.apply {edit edit' : Edit} {own own' so : Items}
    (h : EditFollows exact edit edit') (items : List.Forall₂ (ItemFollows exact) own own')
    (fits : edit.apply own = some so) (base : Items) :
    ∃ so', edit'.apply (own' ++ base) = some (so' ++ base)
      ∧ List.Forall₂ (ItemFollows exact) so so' := by
  obtain ⟨like, same⟩ := h
  cases edit with
  | keep =>
    cases fits
    obtain rfl : edit' = .keep := like
    exact ⟨own', rfl, items⟩
  | push node kind =>
    cases fits
    cases edit' with
    | push node' kind' =>
      refine ⟨(node', kind') :: own', rfl, .cons ⟨like, fun he => ?_⟩ items⟩
      obtain ⟨eq, groupless⟩ := same he
      cases eq
      exact (renumber_groupless groupless later).symm
    | _ => cases like
  | wrap greed bounds =>
    obtain rfl : edit' = .wrap greed bounds := like
    match own, items, fits with
    | (node, .plain) :: rest, @List.Forall₂.cons _ _ _ _ (node', kind') _ _ first more, fits =>
      obtain ⟨kind_eq, node_eq⟩ := first
      obtain rfl : kind' = .plain := kind_eq
      cases fits
      refine ⟨_ :: _, rfl, .cons ⟨rfl, fun he => ?_⟩ more⟩
      rw [show node' = node.renumber later from node_eq he]
      rfl

theorem readItem_follow {symbol : Symbol} {edit : Edit} {own own' so base : Items}
    (hs : Bracketed suffix) (whole : Whole r.rest) (h : readEdit m g symbol r = .ok (edit, r₁))
    (number : exact → symbol.meansGroup r.rest = false) (ends : m.verbose = true → r₁.rest ≠ [])
    (items : List.Forall₂ (ItemFollows exact) own own') (fits : edit.apply own = some so)
    (goes : Goes exact (readItem m g' (own' ++ base) symbol (r.within d suffix))) :
    ∃ so', readItem m g' (own' ++ base) symbol (r.within d suffix)
        = .ok (so' ++ base, r₁.within d suffix)
      ∧ List.Forall₂ (ItemFollows exact) so so' := by
  obtain ⟨edit', read, follows⟩ : ∃ edit', readEdit m g' symbol (r.within d suffix)
      = .ok (edit', r₁.within d suffix) ∧ EditFollows exact edit edit' := by
    by_cases he : exact
    · obtain ⟨groupless, alike⟩ := readEdit_alike whole (number he) h ends g'
      exact ⟨edit, alike d suffix hs, .refl edit, fun _ => ⟨rfl, groupless⟩⟩
    · obtain ⟨⟨items', r'⟩, h'⟩ := goes.ok he
      obtain ⟨edit', read, -⟩ := readItem_eq_ok_iff.mp h'
      obtain ⟨like, rfl⟩ := readEdit_like whole hs h ends read
      exact ⟨edit', read, like, fun h => absurd h he⟩
  obtain ⟨so', fits', items'⟩ := follows.apply items fits base
  exact ⟨so', readItem_eq_ok_iff.mpr ⟨edit', read, fits'⟩, items'⟩

theorem Opens.within {kind : Opening} (h : Opens r kind r₂) (whole : Whole r.rest)
    (hs : Bracketed suffix) : Opens (r.within d suffix) kind (r₂.within d suffix) := by
  obtain ⟨r₁, next, advance, opened⟩ := h
  exact ⟨r₁.within d suffix, next_within whole next, advance_within whole hs next advance,
    ((opening_alike (whole_of_advance whole next advance)).of_eq_ok opened).2 d suffix hs⟩

/-! ## Whole readings -/

/-- That an outcome is what a part is read as in the longer text. -/
def Again (exact : Prop) (front : String) (d : Nat) (suffix : List Char) (m : Modes) (P : Parsed)
    (x : Except Refusal Parsed) : Prop :=
  P.modes = m ∧ ∃ node' g', NodeFollows exact P.node node' ∧ GroupsFollow exact front P.groups g'
    ∧ x = .ok ⟨node', m, g', P.reader.within d suffix⟩

/-- That the reading of a part is followed where the text begins `d` characters later and goes on
with `suffix`. Items come to stand behind others, and leave the longer reading where the part
ends; alternatives are read to their end, where a closing bracket must come next. -/
def Followed (exact : Prop) (front : String) (d : Nat) (suffix : List Char) (m : Modes) (g : Groups)
    (r : Reader) (P : Parsed) : Part → Prop
  | .items own => ∀ ⦃own' base : Items⦄ ⦃top' : Bool⦄ ⦃g' : Groups⦄ ⦃fuel : Nat⦄,
      GroupsFollow exact front g g' → List.Forall₂ (ItemFollows exact) own own' →
      (base ≠ [] ∨ top' = false) → 4 * (r.within d suffix).rest.length + 1 ≤ fuel →
      Goes exact (sequence fuel top' m g' (own' ++ base) (r.within d suffix)) →
      ∃ last last' g'' fuel', P.node = joinItems last ∧ P.modes = m
        ∧ GroupsFollow exact front P.groups g'' ∧ List.Forall₂ (ItemFollows exact) last last'
        ∧ 4 * (P.reader.within d suffix).rest.length + 1 ≤ fuel'
        ∧ sequence fuel top' m g' (own' ++ base) (r.within d suffix)
          = sequence fuel' top' m g'' (last' ++ base) (P.reader.within d suffix)
  | .alternatives => (P.reader.within d suffix).next = some (.plain ')') →
      ∀ ⦃g' : Groups⦄ ⦃fuel : Nat⦄, GroupsFollow exact front g g' →
      4 * (r.within d suffix).rest.length + 2 ≤ fuel →
      Goes exact (alternatives fuel false m g' (r.within d suffix)) →
      Again exact front d suffix m P (alternatives fuel false m g' (r.within d suffix))

/-- A symbol that ends a part stands in the text itself. -/
theorem rest_ne_nil {symbol : Symbol} (next : r.next = some symbol) : r.rest ≠ [] := by
  intro stop
  rw [next_eq_none_iff.mpr stop] at next
  cases next

/-- A sequence of its own that ends in the longer text is read again. -/
theorem Followed.again (h : Followed exact front d suffix m g r P (.items []))
    (stops : Stops (P.reader.within d suffix)) {fuel : Nat} (follow : GroupsFollow exact front g g')
    (enough : 4 * (r.within d suffix).rest.length + 1 ≤ fuel)
    (goes : Goes exact (sequence fuel false m g' [] (r.within d suffix))) :
    Again exact front d suffix m P (sequence fuel false m g' [] (r.within d suffix)) := by
  obtain ⟨last, last', g'', fuel', node, modes, groups, items, -, eq⟩ :=
    h follow .nil (.inr rfl) enough goes
  refine ⟨modes, joinItems last', g'', ?_, groups, ?_⟩
  · rw [node]
    exact joinItems_follows items
  · rw [List.append_nil, List.append_nil, sequence_stop stops] at eq
    exact eq

theorem cons_follows {node node' : Node} {own own' : Items} (h : NodeFollows exact node node')
    (items : List.Forall₂ (ItemFollows exact) own own') :
    List.Forall₂ (ItemFollows exact) ((node, .plain) :: own) ((node', .plain) :: own') :=
  .cons ⟨rfl, h⟩ items

section
variable {top : Bool} {so so' : Items} {yes no body first rest : Parsed} {r₃ r₄ : Reader}
  {symbol : Symbol} {name : String} {n : Nat}

theorem length_within (r : Reader) :
    (r.within d suffix).rest.length = r.rest.length + suffix.length := List.length_append

theorem followed_item {edit : Edit} (hs : Bracketed suffix) (whole : Whole r.rest)
    (next : r.next = some symbol) (isItem : symbol.IsItem) (advance : r.advance = .ok r₁)
    (read : readEdit m g symbol r₁ = .ok (edit, r₂)) (fits : edit.apply so = some so')
    (number : exact → symbol.meansGroup r₁.rest = false) (ends : m.verbose = true → r₂.rest ≠ [])
    (after : Followed exact front d suffix m g r₂ P (.items so')) :
    Followed exact front d suffix m g r P (.items so) := by
  intro own' base top' g' fuel follow items start enough goes
  have whole₁ := whole_of_advance whole next advance
  have shorter := length_of_advance whole next advance
  have short := (readEdit_onward whole₁ read).length_le whole₁
  rw [length_within] at enough
  obtain ⟨fuel, rfl⟩ : ∃ n, fuel = n + 1 := ⟨fuel - 1, by omega⟩
  rw [sequence_item (next_within whole next) isItem, advance_within whole hs next advance,
    ok_bind] at goes ⊢
  obtain ⟨so'', read', items'⟩ := readItem_follow hs whole₁ read number ends items fits goes.first
  rw [read', ok_bind] at goes ⊢
  exact after follow items' start (by rw [length_within]; omega) goes

theorem followed_comment (hs : Bracketed suffix) (whole : Whole r.rest)
    (opens : Opens r .comment r₂)
    (after : Followed exact front d suffix m g r₂ P (.items so)) :
    Followed exact front d suffix m g r P (.items so) := by
  intro own' base top' g' fuel follow items start enough goes
  have shorter := opens.shorter whole
  rw [length_within] at enough
  obtain ⟨fuel, rfl⟩ : ∃ n, fuel = n + 2 := ⟨fuel - 2, by omega⟩
  rw [sequence_comment (opens.within whole hs)] at goes ⊢
  exact after follow items start (by rw [length_within]; omega) goes

/-- Modes for the whole pattern are refused in the longer text. -/
theorem followed_modes {on : List Char} (hs : Bracketed suffix) (whole : Whole r.rest)
    (opens : Opens r (.modes on) r₂) (loose : ¬exact) :
    Followed exact front d suffix m g r P (.items []) := by
  intro own' base top' g' fuel follow items start enough goes
  have shorter := opens.shorter whole
  obtain ⟨Q, refused⟩ := goes.ok loose
  rw [length_within] at enough
  obtain ⟨fuel, rfl⟩ : ∃ n, fuel = n + 2 := ⟨fuel - 2, by omega⟩
  obtain ⟨back, eq⟩ := sequence_modes (m := m) (g := g') (opens.within (d := d) whole hs)
  cases items
  have late : (!top' || !([] ++ base).isEmpty) = true := by
    rcases start with nonempty | rfl
    · simp [nonempty]
    · rfl
  rw [eq, if_pos late] at refused
  cases refused

theorem followed_reference {node : Node} (hs : Bracketed suffix) (whole : Whole r.rest)
    (opens : Opens r (.reference name) r₂) (read : readReference m g name r₂ = .ok node)
    (fresh : exact → Fresh front g)
    (after : Followed exact front d suffix m g r₂ P (.items ((node, .plain) :: so))) :
    Followed exact front d suffix m g r P (.items so) := by
  intro own' base top' g' fuel follow items start enough goes
  have shorter := opens.shorter whole
  rw [length_within] at enough
  obtain ⟨fuel, rfl⟩ : ∃ n, fuel = n + 2 := ⟨fuel - 2, by omega⟩
  rw [sequence_reference (opens.within whole hs)] at goes ⊢
  obtain ⟨node', read', node_follows⟩ := readReference_follow follow fresh read goes.first
  rw [read', ok_bind] at goes ⊢
  exact after follow (cons_follows node_follows items) start (by rw [length_within]; omega) goes

theorem followed_branchOne (hs : Bracketed suffix) (whole : Whole r.rest)
    (opens : Opens r (.branch name) r₂) (read : readBranch g name r₂ = .ok (n, g₁))
    (byName : exact → Text.isIdentifier name.toList = true) (fresh : exact → Fresh front g)
    (inside : Grown g₁ r₂ yes) (next : yes.reader.next = some (.plain ')'))
    (advance : yes.reader.advance = .ok r₃)
    (inner : Followed exact front d suffix m g₁ r₂ yes (.items []))
    (after : Followed exact front d suffix m yes.groups r₃ P
      (.items ((.branch n yes.node .empty, .plain) :: so))) :
    Followed exact front d suffix m g r P (.items so) := by
  intro own' base top' g' fuel follow items start enough goes
  have whole₂ := (opens.onward whole).whole whole
  have shorter := opens.shorter whole
  obtain ⟨whole₃, -, less⟩ := inside.past whole₂ next advance
  rw [length_within] at enough
  obtain ⟨fuel, rfl⟩ : ∃ n, fuel = n + 2 := ⟨fuel - 2, by omega⟩
  obtain ⟨begin, eq⟩ := sequence_branch (m := m) (g := g') (opens.within (d := d) whole hs)
  rw [eq] at goes ⊢
  obtain ⟨n', g₁', read', number, follow₁⟩ := readBranch_follow follow fresh byName read goes.first
  rw [read', ok_bind] at goes ⊢
  have next' : (yes.reader.within d suffix).next = some (.plain ')') := next_within whole₃ next
  obtain ⟨-, node', g₂', node, follow₂, again⟩ := Followed.again inner (.inr (.inr next')) follow₁
    (by rw [length_within]; omega) goes.first
  have noBar : (yes.reader.within d suffix).accept '|'
      = .ok (false, yes.reader.within d suffix) := accept_unseen (by rw [next']; decide)
  rw [again, ok_bind, noBar, ok_bind, if_neg Bool.false_ne_true,
    closing_next next' (advance_within whole₃ hs next advance), ok_bind] at goes ⊢
  have branch : NodeFollows exact (.branch n yes.node .empty) (.branch n' node' .empty) := by
    intro he
    rw [node he, number he]
    rfl
  exact after follow₂ (cons_follows branch items) start (by rw [length_within]; omega) goes

theorem followed_branchTwo (hs : Bracketed suffix) (whole : Whole r.rest)
    (opens : Opens r (.branch name) r₂) (read : readBranch g name r₂ = .ok (n, g₁))
    (byName : exact → Text.isIdentifier name.toList = true) (fresh : exact → Fresh front g)
    (inside : Grown g₁ r₂ yes) (bar : yes.reader.next = some (.plain '|'))
    (past : yes.reader.advance = .ok r₃) (inside' : Grown yes.groups r₃ no)
    (next : no.reader.next = some (.plain ')')) (advance : no.reader.advance = .ok r₄)
    (inner : Followed exact front d suffix m g₁ r₂ yes (.items []))
    (inner' : Followed exact front d suffix m yes.groups r₃ no (.items []))
    (after : Followed exact front d suffix m no.groups r₄ P
      (.items ((.branch n yes.node no.node, .plain) :: so))) :
    Followed exact front d suffix m g r P (.items so) := by
  intro own' base top' g' fuel follow items start enough goes
  have whole₂ := (opens.onward whole).whole whole
  have shorter := opens.shorter whole
  obtain ⟨whole₃, whole₄, less⟩ := inside.past whole₂ bar past
  obtain ⟨whole₅, -, less'⟩ := inside'.past whole₄ next advance
  rw [length_within] at enough
  obtain ⟨fuel, rfl⟩ : ∃ n, fuel = n + 2 := ⟨fuel - 2, by omega⟩
  obtain ⟨begin, eq⟩ := sequence_branch (m := m) (g := g') (opens.within (d := d) whole hs)
  rw [eq] at goes ⊢
  obtain ⟨n', g₁', read', number, follow₁⟩ := readBranch_follow follow fresh byName read goes.first
  rw [read', ok_bind] at goes ⊢
  have bar' : (yes.reader.within d suffix).next = some (.plain '|') := next_within whole₃ bar
  obtain ⟨-, node', g₂', node, follow₂, again⟩ := Followed.again inner (.inr (.inl bar')) follow₁
    (by rw [length_within]; omega) goes.first
  rw [again, ok_bind, accept_next bar' (advance_within whole₃ hs bar past), ok_bind,
    if_pos rfl] at goes ⊢
  have next' : (no.reader.within d suffix).next = some (.plain ')') := next_within whole₅ next
  obtain ⟨-, node'', g₃', node₂, follow₃, again'⟩ := Followed.again inner' (.inr (.inr next'))
    follow₂ (by rw [length_within]; omega) goes.first
  have noBar : ¬(no.reader.within d suffix).sees '|' = true := by
    rw [sees, next']
    decide
  rw [again', ok_bind, if_neg noBar, closing_next next' (advance_within whole₅ hs next advance),
    ok_bind] at goes ⊢
  have branch : NodeFollows exact (.branch n yes.node no.node) (.branch n' node' node'') := by
    intro he
    rw [node he, node₂ he, number he]
    rfl
  exact after follow₃ (cons_follows branch items) start (by rw [length_within]; omega) goes

theorem followed_enclosed {kind : Opening} {e : Enclosure} (hs : Bracketed suffix)
    (whole : Whole r.rest) (opens : Opens r kind r₂)
    (encloses : enclosure? m g r₂ kind = some (.ok e)) (fresh : exact → Fresh front e.groups)
    (inside : Grown e.groups r₂ body) (next : body.reader.next = some (.plain ')'))
    (advance : body.reader.advance = .ok r₃)
    (inner : Followed exact front d suffix e.modes e.groups r₂ body .alternatives)
    (after : Followed exact front d suffix m (e.finish body.node body.groups).2 r₃ P
      (.items (((e.finish body.node body.groups).1, .plain) :: so))) :
    Followed exact front d suffix m g r P (.items so) := by
  intro own' base top' g' fuel follow items start enough goes
  have whole₂ := (opens.onward whole).whole whole
  have shorter := opens.shorter whole
  obtain ⟨whole₃, -, less⟩ := inside.past whole₂ next advance
  rw [length_within] at enough
  obtain ⟨fuel, rfl⟩ : ∃ n, fuel = n + 2 := ⟨fuel - 2, by omega⟩
  obtain ⟨x, encloses', returns⟩ : ∃ x, enclosure? m g' (r₂.within d suffix) kind = some x ∧ _ :=
    enclosure_follow follow fresh encloses
  obtain ⟨begin, eq⟩ := sequence_enclosed (opens.within whole hs) encloses'
  rw [eq] at goes ⊢
  obtain ⟨e', rfl, follows⟩ := returns goes.first
  rw [ok_bind, follows.modes] at goes ⊢
  obtain ⟨-, node', g₂', node, follow₂, again⟩ := inner (next_within whole₃ next) follows.groups
    (by rw [length_within]; omega) goes.first
  rw [again, ok_bind, closing_next (next_within whole₃ next)
    (advance_within whole₃ hs next advance), ok_bind] at goes ⊢
  exact after (follows.after node follow₂) (cons_follows (follows.node node follow₂) items) start
    (by rw [length_within]; omega) goes

theorem followed_single (one : Followed exact front d suffix m g r P (.items [])) :
    Followed exact front d suffix m g r P .alternatives := by
  intro next g' fuel follow enough goes
  obtain ⟨fuel, rfl⟩ : ∃ n, fuel = n + 1 := ⟨fuel - 1, by omega⟩
  rw [alternatives_eq] at goes ⊢
  obtain ⟨modes, node', g'', node, groups, again⟩ := Followed.again one (.inr (.inr next)) follow
    (by omega) goes.first
  have noBar : (P.reader.within d suffix).accept '|' = .ok (false, P.reader.within d suffix) :=
    accept_unseen (by rw [next]; decide)
  refine ⟨modes, node', g'', node, groups, ?_⟩
  rw [again, ok_bind, readOthers, noBar, ok_bind, if_neg Bool.false_ne_true]

theorem followed_more (hs : Bracketed suffix) (whole : Whole r.rest) (grown : Grown g r first)
    (bar : first.reader.next = some (.plain '|')) (past : first.reader.advance = .ok r₁)
    (one : Followed exact front d suffix m g r first (.items []))
    (others : first.modes = m →
      Followed exact front d suffix m first.groups r₁ rest .alternatives) :
    Followed exact front d suffix m g r { rest with node := .alt first.node rest.node }
      .alternatives := by
  intro next g' fuel follow enough goes
  obtain ⟨whole₁, -, less⟩ := grown.past whole bar past
  rw [length_within] at enough
  obtain ⟨fuel, rfl⟩ : ∃ n, fuel = n + 1 := ⟨fuel - 1, by omega⟩
  rw [alternatives_eq] at goes ⊢
  have bar' : (first.reader.within d suffix).next = some (.plain '|') := next_within whole₁ bar
  obtain ⟨modes, node', g'', node, groups, again⟩ := Followed.again one (.inr (.inl bar')) follow
    (by rw [length_within]; omega) goes.first
  rw [again, ok_bind, readOthers, accept_next bar' (advance_within whole₁ hs bar past), ok_bind,
    if_pos rfl] at goes ⊢
  obtain ⟨modes', node₂', g₃', node₂, groups₂, again'⟩ := others modes next groups
    (by rw [length_within]; omega) goes.first
  refine ⟨modes', .alt node' node₂', g₃', ?_, groups₂, ?_⟩
  · intro he
    rw [node he, node₂ he]
    rfl
  · rw [again', ok_bind]

end

/-- Without modes no comment reaches the end of a text. -/
theorem verbose_none {p : Prop} (h : Modes.none.verbose = true) : p := by
  cases h

/-- Every reading is followed: up to its end if it is not refused on the way, and exactly if it sets
no modes for the whole pattern and refers to no group by number. -/
theorem Reads.follow {part : Part} {top : Bool} (h : Reads part top m g r P)
    (hs : Bracketed suffix) (whole : Whole r.rest) (early : exact → top = false)
    (byName : exact → refersByNumber r.rest = false) (fresh : exact → Fresh front P.groups)
    (ends : m.verbose = true → P.reader.rest ≠ []) :
    Followed exact front d suffix m g r P part := by
  have byName_onward : ∀ {r r₁ : Reader}, Onward r r₁ → Whole r.rest →
      (exact → refersByNumber r.rest = false) → exact → refersByNumber r₁.rest = false :=
    fun onward whole byName he => refersByNumber_onward onward whole (byName he)
  induction h with
  | stop =>
    intro own' base top' g' fuel follow items _ enough _
    exact ⟨_, own', g', fuel, rfl, rfl, follow, items, enough, rfl⟩
  | item next isItem advance read fits rest ih =>
    have whole₁ := whole_of_advance whole next advance
    have onward := readEdit_onward whole₁ read
    have whole₂ := onward.whole whole₁
    have byName₂ := byName_onward (.step next advance onward) whole byName
    exact followed_item hs whole next isItem advance read fits
      (fun he => (refersByNumber_step whole next advance (byName he)).2.1)
      (fun verbose stop => ends verbose ((rest.grown whole₂).onward.rest_eq_nil whole₂ stop))
      (ih whole₂ early byName₂ fresh ends)
  | comment opens _ ih =>
    have onward := opens.onward whole
    exact followed_comment hs whole opens
      (ih (onward.whole whole) early (byName_onward onward whole byName) fresh ends)
  | modes opens _ _ => exact followed_modes hs whole opens fun he => absurd (early he) (by decide)
  | reference opens read rest ih =>
    have onward := opens.onward whole
    have whole₂ := onward.whole whole
    exact followed_reference hs whole opens read
      (fun he => (fresh he).before (rest.grown whole₂).names)
      (ih whole₂ early (byName_onward onward whole byName) fresh ends)
  | branchOne opens read first next advance rest ihFirst ihRest =>
    have onward := opens.onward whole
    have whole₂ := onward.whole whole
    have byName₂ := byName_onward onward whole byName
    have inside := first.grown whole₂
    have whole₄ := (inside.past whole₂ next advance).2.1
    have byName₄ := byName_onward (inside.onward.trans (.one next advance)) whole₂ byName₂
    have freshYes := fun he => (fresh he).before (rest.grown whole₄).names
    exact followed_branchOne hs whole opens read
      (fun he => opens.branch_name whole (byName he))
      (fun he => (freshYes he).before ((readBranch_groups read).2.1 ▸ inside.names))
      inside next advance
      (ihFirst whole₂ (fun _ => rfl) byName₂ freshYes fun _ => rest_ne_nil next)
      (ihRest whole₄ early byName₄ fresh ends)
  | branchTwo opens read first bar past second next advance rest ihFirst ihSecond ihRest =>
    have onward := opens.onward whole
    have whole₂ := onward.whole whole
    have byName₂ := byName_onward onward whole byName
    have inside := first.grown whole₂
    have whole₄ := (inside.past whole₂ bar past).2.1
    have byName₄ := byName_onward (inside.onward.trans (.one bar past)) whole₂ byName₂
    have inside' := second.grown whole₄
    have whole₆ := (inside'.past whole₄ next advance).2.1
    have byName₆ := byName_onward (inside'.onward.trans (.one next advance)) whole₄ byName₄
    have freshNo := fun he => (fresh he).before (rest.grown whole₆).names
    have freshYes := fun he => (freshNo he).before inside'.names
    exact followed_branchTwo hs whole opens read
      (fun he => opens.branch_name whole (byName he))
      (fun he => (freshYes he).before ((readBranch_groups read).2.1 ▸ inside.names))
      inside bar past inside' next advance
      (ihFirst whole₂ (fun _ => rfl) byName₂ freshYes fun _ => rest_ne_nil bar)
      (ihSecond whole₄ (fun _ => rfl) byName₄ freshNo fun _ => rest_ne_nil next)
      (ihRest whole₆ early byName₆ fresh ends)
  | enclosed opens encloses inner next advance rest ihInner ihRest =>
    have onward := opens.onward whole
    have whole₂ := onward.whole whole
    have byName₂ := byName_onward onward whole byName
    have inside := inner.grown whole₂
    have whole₄ := (inside.past whole₂ next advance).2.1
    have byName₄ := byName_onward (inside.onward.trans (.one next advance)) whole₂ byName₂
    have after := (rest.grown whole₄).names
    rw [((enclosure?_groups encloses).2.2.2 _ _).2.1] at after
    have freshBody := fun he => (fresh he).before after
    exact followed_enclosed hs whole opens encloses
      (fun he => (freshBody he).before inside.names) inside next advance
      (ihInner whole₂ (fun _ => rfl) byName₂ freshBody fun _ => rest_ne_nil next)
      (ihRest whole₄ early byName₄ fresh ends)
  | single one _ ih => exact followed_single (ih whole early byName fresh ends)
  | more one bar past others ihOne ihOthers =>
    have grown := one.grown whole
    have whole₂ := (grown.past whole bar past).2.1
    have byName₂ := byName_onward (grown.onward.trans (.one bar past)) whole byName
    have freshFirst := fun he => (fresh he).before (others.grown whole₂).names
    exact followed_more hs whole grown bar past
      (ihOne whole early byName freshFirst fun _ => rest_ne_nil bar) fun modes =>
        modes ▸ ihOthers whole₂ (fun _ => rfl) byName₂ fresh (modes ▸ ends)

/-- Whatever a reading refers to, it is followed to its end where the longer text is accepted. -/
theorem Reads.follow_accepted {part : Part} {top : Bool} (h : Reads part top m g r P)
    (hs : Bracketed suffix) (whole : Whole r.rest) (ends : m.verbose = true → P.reader.rest ≠ []) :
    Followed False "" d suffix m g r P part :=
  h.follow hs whole False.elim False.elim False.elim ends

end Neogrammar.Pattern
