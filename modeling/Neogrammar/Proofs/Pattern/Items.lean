import Neogrammar.Proofs.Pattern.Escapes
import Neogrammar.Proofs.Pattern.Repeats

/-!
# Items of a sequence

A sequence goes on behind a symbol that opens no group by an edit of its items: one more item, a
repeat of the latest one, or nothing. What the edit is does not depend on the items before, and it
is read alike where a bracket follows the text, if no group is meant by its number.
-/
namespace Neogrammar.Pattern

open Reader

abbrev Items := List (Node × ItemKind)

/-- A sequence ends at a bar, at a closing bracket and at the end of the text. -/
def Stops (r : Reader) : Prop :=
  r.next = none ∨ r.next = some (.plain '|') ∨ r.next = some (.plain ')')

/-- A symbol that neither ends a sequence nor opens a group. -/
def Symbol.IsItem (symbol : Symbol) : Prop :=
  symbol ≠ .plain '|' ∧ symbol ≠ .plain ')' ∧ symbol ≠ .plain '('

/-- What such a symbol, with what belongs to it, makes of the items so far; the reader stands
after it. -/
def readItem (m : Modes) (g : Groups) (items : Items) (symbol : Symbol) (r : Reader) :
    Except Refusal (Items × Reader) :=
  match symbol with
  | .escaped c => do
    let (node, kind, r) ← itemEscape m g c r
    pure ((node, kind) :: items, r)
  | .plain c =>
    if m.verbose && isPatternBlank c then pure (items, r)
    else if m.verbose && c == '#' then do
      let (_, r) ← r.skipPast '\n' (r.rest.length + 1)
      pure (items, r)
    else if c = '[' then do
      let (test, r) ← set m r
      pure ((.char test, .plain) :: items, r)
    else if c = '?' then repeatLast ⟨0, some 1⟩ r.position items r
    else if c = '*' then repeatLast ⟨0, none⟩ r.position items r
    else if c = '+' then repeatLast ⟨1, none⟩ r.position items r
    else if c = '\x7b' then do
      match ← bracedBounds r with
      | none => pure ((.char (.literal c.toNat m.fold), .plain) :: items, r)
      | some (bounds, r') => repeatLast bounds r.position items r'
    else if c = '.' then
      pure ((.char (if m.dotAll then .any else .notNewline), .plain) :: items, r)
    else if c = '^' then
      pure ((.anchor (if m.multiline then .lineStart else .start), .anchor) :: items, r)
    else if c = '$' then
      pure ((.anchor (if m.multiline then .lineEnd else .beforeFinalNewline), .anchor) :: items, r)
    else pure ((.char (.literal c.toNat m.fold), .plain) :: items, r)

variable {fuel : Nat} {top : Bool} {m : Modes} {g : Groups} {items : Items} {r r₁ : Reader}
  {symbol : Symbol}

/-- A sequence that does not end goes on with a group or with an item. -/
theorem next_of_not_stops (going : ¬Stops r) :
    r.next = some (.plain '(') ∨ ∃ symbol, r.next = some symbol ∧ symbol.IsItem := by
  obtain ⟨symbol, next⟩ : ∃ symbol, r.next = some symbol :=
    Option.ne_none_iff_exists'.mp fun ended => going (.inl ended)
  by_cases bracket : symbol = .plain '('
  · exact .inl (bracket ▸ next)
  · refine .inr ⟨symbol, next, ?_, ?_, bracket⟩
    · rintro rfl
      exact going (.inr (.inl next))
    · rintro rfl
      exact going (.inr (.inr next))

theorem length_pos_of_not_stops (going : ¬Stops r) : 0 < r.rest.length := by
  rw [List.length_pos_iff, Ne, ← next_eq_none_iff]
  exact fun ended => going (.inl ended)

theorem sequence_stop (h : Stops r) :
    sequence fuel top m g items r = .ok ⟨joinItems items, m, g, r⟩ := by
  cases fuel with
  | zero => rw [sequence]
  | succ fuel =>
    rw [sequence]
    rcases h with next | next | next <;> simp [next]

theorem ite_bind {α β : Type} {p : Prop} [Decidable p] (x y : Except Refusal α)
    (k : α → Except Refusal β) :
    (if p then x else y) >>= k = if p then x >>= k else y >>= k := by
  split <;> rfl

theorem sequence_item (next : r.next = some symbol) (h : symbol.IsItem) :
    sequence (fuel + 1) top m g items r = r.advance >>= fun r =>
      readItem m g items symbol r >>= fun x => sequence fuel top m g x.1 x.2 := by
  rw [sequence, next]
  cases symbol with
  | escaped c =>
    unfold readItem
    cases r.advance with
    | error e => rfl
    | ok r =>
      simp only [ok_bind, bind_assoc]
      rfl
  | plain c =>
    obtain ⟨bar, closing, opening⟩ := h
    have stop : ¬(c = '|' ∨ c = ')') := by
      rintro (rfl | rfl)
      · exact bar rfl
      · exact closing rfl
    have opening' : c ≠ '(' := by rintro rfl; exact opening rfl
    unfold readItem
    dsimp only
    rw [if_neg stop]
    cases r.advance with
    | error e => rfl
    | ok r =>
      by_cases brace : c = '\x7b'
      · subst brace
        simp only [ok_bind, ite_bind, bind_assoc, pure_eq_ok, ↓reduceIte]
        cases bracedBounds r with
        | error e => rfl
        | ok found => cases found <;> rfl
      · simp only [ok_bind, ite_bind, bind_assoc, pure_eq_ok, opening', brace, ↓reduceIte]

/-- What an item does to those before it: nothing, add one, or repeat the latest. -/
inductive Edit where
  | keep
  | push (node : Node) (kind : ItemKind)
  | wrap (greed : Greed) (bounds : Bounds)

/-- Only an item that may be repeated is repeated. -/
def Edit.apply : Edit → Items → Option Items
  | keep, items => some items
  | push node kind, items => some ((node, kind) :: items)
  | wrap greed bounds, (node, .plain) :: items =>
    some ((.repeat greed bounds.low bounds.high node, .repeated) :: items)
  | wrap _ _, _ => none

def readWrap (bounds : Bounds) (r : Reader) : Except Refusal (Edit × Reader) := do
  let (greed, r) ← greedMark r
  pure (.wrap greed bounds, r)

/-- The marks that repeat an item. -/
def repeatMark? (c : Char) : Option Bounds :=
  if c = '?' then some ⟨0, some 1⟩
  else if c = '*' then some ⟨0, none⟩
  else if c = '+' then some ⟨1, none⟩
  else none

/-- A character that is an item by itself. -/
def characterEdit (m : Modes) (c : Char) : Edit :=
  if c = '.' then .push (.char (if m.dotAll then .any else .notNewline)) .plain
  else if c = '^' then .push (.anchor (if m.multiline then .lineStart else .start)) .anchor
  else if c = '$' then
    .push (.anchor (if m.multiline then .lineEnd else .beforeFinalNewline)) .anchor
  else .push (.char (.literal c.toNat m.fold)) .plain

/-- What an item does, before it is known what it does it to. -/
def readEdit (m : Modes) (g : Groups) (symbol : Symbol) (r : Reader) :
    Except Refusal (Edit × Reader) :=
  match symbol with
  | .escaped c => do
    let (node, kind, r) ← itemEscape m g c r
    pure (.push node kind, r)
  | .plain c =>
    if m.verbose && isPatternBlank c then pure (.keep, r)
    else if m.verbose && c == '#' then do
      let (_, r) ← r.skipPast '\n' (r.rest.length + 1)
      pure (.keep, r)
    else if c = '[' then do
      let (test, r) ← set m r
      pure (.push (.char test) .plain, r)
    else
      match repeatMark? c with
      | some bounds => readWrap bounds r
      | none =>
        if c = '\x7b' then do
          match ← bracedBounds r with
          | none => pure (.push (.char (.literal c.toNat m.fold)) .plain, r)
          | some (bounds, r') => readWrap bounds r'
        else pure (characterEdit m c, r)

theorem repeatLast_eq_ok_iff {bounds : Bounds} {here : Nat} {items' : Items} :
    repeatLast bounds here items r = .ok (items', r₁)
      ↔ ∃ edit, readWrap bounds r = .ok (edit, r₁) ∧ edit.apply items = some items' := by
  constructor
  · intro h
    obtain ⟨node, rest, greed, rfl, rfl, mark⟩ := repeatLast_eq_ok h
    exact ⟨.wrap greed bounds, by rw [readWrap, mark]; rfl, rfl⟩
  · rintro ⟨edit, h, fits⟩
    obtain ⟨⟨greed, r'⟩, mark, h⟩ := bind_eq_ok_iff.mp h
    cases h
    match items, fits with
    | (node, .plain) :: rest, fits =>
      cases fits
      rw [repeatLast_plain, mark]
      rfl

/-- An item does to the items before it what its edit does. -/
theorem readItem_eq_ok_iff {items' : Items} :
    readItem m g items symbol r = .ok (items', r₁)
      ↔ ∃ edit, readEdit m g symbol r = .ok (edit, r₁) ∧ edit.apply items = some items' := by
  have done : ∀ {items₁ : Items} {e : Edit} {r₂ : Reader}, e.apply items = some items₁ →
      ((pure (items₁, r₂) : Except Refusal (Items × Reader)) = .ok (items', r₁)
        ↔ ∃ edit, (pure (e, r₂) : Except Refusal (Edit × Reader)) = .ok (edit, r₁)
          ∧ edit.apply items = some items') := by
    intro items₁ e r₂ fits
    simp only [pure_eq_ok, Except.ok.injEq, Prod.mk.injEq]
    constructor
    · rintro ⟨rfl, rfl⟩
      exact ⟨e, ⟨rfl, rfl⟩, fits⟩
    · rintro ⟨edit, ⟨rfl, rfl⟩, fits'⟩
      exact ⟨Option.some.inj (fits.symm.trans fits'), rfl⟩
  have through : ∀ {α : Type} {x : Except Refusal α} {f : α → Except Refusal (Items × Reader)}
      {f' : α → Except Refusal (Edit × Reader)},
      (∀ a, f a = .ok (items', r₁) ↔ ∃ edit, f' a = .ok (edit, r₁)
        ∧ edit.apply items = some items') →
      (x >>= f = .ok (items', r₁) ↔ ∃ edit, x >>= f' = .ok (edit, r₁)
        ∧ edit.apply items = some items') := by
    rintro α (e | a) f f' each
    · simp [bind, Except.bind]
    · exact each a
  unfold readItem readEdit
  cases symbol with
  | escaped c => exact through fun _ => done rfl
  | plain c =>
    dsimp only
    by_cases blank : (m.verbose && isPatternBlank c) = true
    · rw [if_pos blank, if_pos blank]
      exact done rfl
    rw [if_neg blank, if_neg blank]
    by_cases comment : (m.verbose && c == '#') = true
    · rw [if_pos comment, if_pos comment]
      exact through fun _ => done rfl
    rw [if_neg comment, if_neg comment]
    by_cases bracket : c = '['
    · rw [if_pos bracket, if_pos bracket]
      exact through fun _ => done rfl
    rw [if_neg bracket, if_neg bracket]
    by_cases optional : c = '?'
    · subst optional
      exact repeatLast_eq_ok_iff
    by_cases star : c = '*'
    · subst star
      exact repeatLast_eq_ok_iff
    by_cases plus : c = '+'
    · subst plus
      exact repeatLast_eq_ok_iff
    have noRepeat : repeatMark? c = none := by
      rw [repeatMark?, if_neg optional, if_neg star, if_neg plus]
    rw [if_neg optional, if_neg star, if_neg plus, noRepeat]
    dsimp only
    by_cases brace : c = '\x7b'
    · rw [if_pos brace, if_pos brace]
      refine through fun found => ?_
      cases found with
      | none => exact done rfl
      | some x => exact repeatLast_eq_ok_iff
    rw [if_neg brace, if_neg brace, characterEdit]
    by_cases dot : c = '.'
    · rw [if_pos dot, if_pos dot]
      exact done rfl
    rw [if_neg dot, if_neg dot]
    by_cases caret : c = '^'
    · rw [if_pos caret, if_pos caret]
      exact done rfl
    rw [if_neg caret, if_neg caret]
    by_cases dollar : c = '$'
    · rw [if_pos dollar, if_pos dollar]
      exact done rfl
    rw [if_neg dollar, if_neg dollar]
    exact done rfl

/-! ## Items within a longer text -/

variable {edit : Edit}

theorem readWrap_alike {bounds : Bounds} (whole : Whole r.rest) :
    ReadsAlike r (readWrap bounds r) fun d suffix => readWrap bounds (r.within d suffix) :=
  .bind whole (greedMark_alike whole) fun _ r₁ _ => .ok r₁ _

/-- An edit that has nothing to do with groups: what it adds tests a character or a place. -/
def Edit.Groupless : Edit → Prop
  | push node _ => (∃ test, node = .char test) ∨ ∃ place, node = .anchor place
  | _ => True

theorem characterEdit_groupless (m : Modes) (c : Char) : (characterEdit m c).Groupless := by
  unfold characterEdit Edit.Groupless
  by_cases dot : c = '.'
  · rw [if_pos dot]
    exact .inl ⟨_, rfl⟩
  rw [if_neg dot]
  by_cases caret : c = '^'
  · rw [if_pos caret]
    exact .inr ⟨_, rfl⟩
  rw [if_neg caret]
  by_cases dollar : c = '$'
  · rw [if_pos dollar]
    exact .inr ⟨_, rfl⟩
  rw [if_neg dollar]
  exact .inl ⟨_, rfl⟩

theorem readWrap_groupless {bounds : Bounds} (h : readWrap bounds r = .ok (edit, r₁)) :
    edit.Groupless := by
  obtain ⟨_, -, h⟩ := bind_eq_ok_iff.mp h
  cases h
  trivial

theorem readEdit_groupless {c : Char} (h : readEdit m g (.plain c) r = .ok (edit, r₁)) :
    edit.Groupless := by
  unfold readEdit at h
  dsimp only at h
  split at h
  · cases h
    trivial
  split at h
  · obtain ⟨_, -, h⟩ := bind_eq_ok_iff.mp h
    cases h
    trivial
  split at h
  · obtain ⟨_, -, h⟩ := bind_eq_ok_iff.mp h
    cases h
    exact .inl ⟨_, rfl⟩
  split at h
  · exact readWrap_groupless h
  split at h
  · obtain ⟨found, -, h⟩ := bind_eq_ok_iff.mp h
    cases found with
    | none =>
      cases h
      exact .inl ⟨_, rfl⟩
    | some x => exact readWrap_groupless h
  · cases h
    exact characterEdit_groupless m c

/-- A plain symbol that begins no comment is read alike in a longer text, whatever groups there
are. -/
theorem readEdit_uncommented {c : Char} (whole : Whole r.rest)
    (comment : ¬(m.verbose && c == '#') = true) (g' : Groups) :
    ReadsAlike r (readEdit m g (.plain c) r)
      fun d suffix => readEdit m g' (.plain c) (r.within d suffix) := by
  simp only [readEdit, if_neg comment]
  refine .ite (fun _ => .ok r _) fun _ => .ite (fun _ => ?_) fun _ => ?_
  · exact .bind whole (set_alike whole) fun test r₁ _ => .ok r₁ _
  cases repeatMark? c with
  | some bounds => exact readWrap_alike whole
  | none =>
  refine .ite (fun _ => ?_) fun _ => .ok r _
  refine (bracedBounds_alike whole).bindFrom fun found onward => ?_
  cases found with
  | none => exact ⟨r, .refl r, .ok r _⟩
  | some x =>
    obtain ⟨bounds, r₁⟩ := x
    have steps : Onward r r₁ := onward _ rfl
    exact ⟨r₁, steps, readWrap_alike (steps.whole whole)⟩

/-- A comment is read alike in a longer text, if it does not run to the end of this one. -/
theorem readEdit_comment {c : Char} (whole : Whole r.rest)
    (comment : (m.verbose && c == '#') = true) (h : readEdit m g (.plain c) r = .ok (edit, r₁)) :
    Onward r r₁ ∧ (r₁.rest ≠ [] → ∀ g' d suffix, Bracketed suffix →
      readEdit m g' (.plain c) (r.within d suffix) = .ok (edit, r₁.within d suffix)) := by
  obtain rfl : c = '#' := by simpa using (Bool.and_eq_true_iff.mp comment).2
  have solid : (m.verbose && isPatternBlank '#') = false := by simp [isPatternBlank]
  simp only [readEdit, solid, comment, Bool.false_eq_true, ↓reduceIte] at h ⊢
  obtain ⟨⟨found, r'⟩, skipped, h⟩ := bind_eq_ok_iff.mp h
  cases h
  refine ⟨skipPast_onward skipped, fun ends g' d suffix hs => ?_⟩
  cases found with
  | false => exact absurd (skipPast_end whole (Nat.lt_succ_self _) skipped) ends
  | true =>
    rw [rest_within, skipPast_alike whole (steps_within r.rest suffix) skipped d hs]
    rfl

/-- A plain symbol is read alike in a longer text, if no comment runs to the end of this one. -/
theorem readEdit_plain {c : Char} (whole : Whole r.rest)
    (h : readEdit m g (.plain c) r = .ok (edit, r₁)) :
    Onward r r₁ ∧ ((m.verbose = true → r₁.rest ≠ []) → ∀ g' d suffix, Bracketed suffix →
      readEdit m g' (.plain c) (r.within d suffix) = .ok (edit, r₁.within d suffix)) := by
  by_cases comment : (m.verbose && c == '#') = true
  · obtain ⟨onward, alike⟩ := readEdit_comment whole comment h
    rw [Bool.and_eq_true] at comment
    exact ⟨onward, fun ends => alike (ends comment.1)⟩
  · exact ⟨((readEdit_uncommented whole comment g).of_eq_ok h).1,
      fun _ g' => ((readEdit_uncommented whole comment g').of_eq_ok h).2⟩

/-- Whether a symbol means a group by its number. -/
def Symbol.meansGroup : Symbol → List Char → Bool
  | .escaped c, rest => Pattern.meansGroup c rest
  | .plain _, _ => false

theorem readEdit_onward (whole : Whole r.rest) (h : readEdit m g symbol r = .ok (edit, r₁)) :
    Onward r r₁ := by
  cases symbol with
  | plain c => exact (readEdit_plain whole h).1
  | escaped c =>
    obtain ⟨⟨node, kind, r'⟩, escape, h⟩ := bind_eq_ok_iff.mp h
    cases h
    cases number : startsNumber c with
    | false => exact (itemEscape_alike g g whole number _ escape).1
    | true => exact (itemEscape_numbered whole number escape).1

/-- Where no group is meant by its number, an item is read alike in a longer text, whatever groups
there are. -/
theorem readEdit_alike (whole : Whole r.rest) (number : symbol.meansGroup r.rest = false)
    (h : readEdit m g symbol r = .ok (edit, r₁)) (ends : m.verbose = true → r₁.rest ≠ [])
    (g' : Groups) : edit.Groupless ∧ ∀ d suffix, Bracketed suffix →
      readEdit m g' symbol (r.within d suffix) = .ok (edit, r₁.within d suffix) := by
  cases symbol with
  | plain c =>
    exact ⟨readEdit_groupless h, (readEdit_plain whole h).2 ends g'⟩
  | escaped c =>
    obtain ⟨⟨node, kind, r'⟩, escape, h⟩ := bind_eq_ok_iff.mp h
    cases h
    obtain ⟨shape, alike⟩ := itemEscape_groupless whole number escape
    have groupless : (Edit.push node kind).Groupless := by
      rcases shape with ⟨-, test⟩ | ⟨-, place⟩
      · exact .inl test
      · exact .inr place
    refine ⟨groupless, ?_⟩
    intro d suffix hs
    dsimp only [readEdit]
    rw [alike d suffix hs g']
    rfl

/-- Edits that differ at most in what they add. -/
def Edit.Like : Edit → Edit → Prop
  | push _ kind, push _ kind' => kind' = kind
  | edit, edit' => edit' = edit

theorem Edit.Like.refl (edit : Edit) : edit.Like edit := by
  cases edit <;> rfl

/-- Where an item is read in a longer text at all, it takes the same place there and does the
same. -/
theorem readEdit_like {d : Nat} {suffix : List Char} {g' : Groups} {edit' : Edit} {r' : Reader}
    (whole : Whole r.rest) (hs : Bracketed suffix) (h : readEdit m g symbol r = .ok (edit, r₁))
    (ends : m.verbose = true → r₁.rest ≠ [])
    (h' : readEdit m g' symbol (r.within d suffix) = .ok (edit', r')) :
    edit.Like edit' ∧ r' = r₁.within d suffix := by
  cases number : symbol.meansGroup r.rest with
  | false =>
    rw [(readEdit_alike whole number h ends g').2 d suffix hs] at h'
    cases h'
    exact ⟨.refl _, rfl⟩
  | true =>
    cases symbol with
    | plain c => cases number
    | escaped c =>
      obtain ⟨⟨node, kind, r₂⟩, escape, h⟩ := bind_eq_ok_iff.mp h
      cases h
      obtain ⟨⟨node', kind', r₃⟩, escape', h'⟩ := bind_eq_ok_iff.mp h'
      cases h'
      have starts : startsNumber c = true := (Bool.and_eq_true_iff.mp number).1
      obtain ⟨-, rfl, -, same⟩ := itemEscape_numbered whole starts escape
      exact same d suffix hs g' node' kind' _ escape'

/-- An edit reaches no further than the latest item. -/
theorem Edit.apply_append {so own base : Items} (nonempty : own ≠ [])
    (h : edit.apply (own ++ base) = some so) :
    ∃ own', own' ≠ [] ∧ edit.apply own = some own' ∧ so = own' ++ base := by
  match edit, own, h with
  | .keep, own, h =>
    cases h
    exact ⟨own, nonempty, rfl, rfl⟩
  | .push node kind, own, h =>
    cases h
    exact ⟨(node, kind) :: own, by simp, rfl, rfl⟩
  | .wrap greed bounds, (node, .plain) :: own, h =>
    cases h
    exact ⟨_ :: own, by simp, rfl, rfl⟩

end Neogrammar.Pattern
