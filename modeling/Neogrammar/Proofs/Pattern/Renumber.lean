import Neogrammar.Proofs.Pattern.Grammar
import Neogrammar.Proofs.Pattern.Reading

/-!
# One more group before all others

What becomes of a pattern and of its groups where another group stands before them: every group but
the whole pattern has a number one higher. Names go along; references by number do not, so a text
is asked for whether it holds any.
-/
namespace Neogrammar.Pattern

open Reader

/-- The number of a group behind one more. The whole pattern stays group 0. -/
def later : Nat → Nat
  | 0 => 0
  | n + 1 => n + 2

theorem later_lt {n count : Nat} (h : n < count) : later n < count + 1 := by
  cases n with
  | zero => exact Nat.succ_pos count
  | succ n => exact Nat.succ_lt_succ h

theorem later_of_pos {n : Nat} (h : 0 < n) : later n = n + 1 := by
  cases n with
  | zero => exact absurd h (Nat.lt_irrefl 0)
  | succ n => rfl

namespace Node

/-- The same pattern with other numbers for its groups. -/
def renumber (f : Nat → Nat) : Node → Node
  | empty => empty
  | char test => char test
  | seq a b => seq (a.renumber f) (b.renumber f)
  | alt a b => alt (a.renumber f) (b.renumber f)
  | group n body => group (f n) (body.renumber f)
  | .repeat greed low high body => .repeat greed low high (body.renumber f)
  | ahead negated body => ahead negated (body.renumber f)
  | behind negated width body => behind negated width (body.renumber f)
  | atomic body => atomic (body.renumber f)
  | reference n fold => reference (f n) fold
  | branch n yes no => branch (f n) (yes.renumber f) (no.renumber f)
  | anchor place => anchor place

theorem width_renumber {f : Nat → Nat} {widths widths' : Nat → Nat × Nat}
    (h : ∀ n, widths' (f n) = widths n) (node : Node) :
    (node.renumber f).width widths' = node.width widths := by
  induction node with
  | reference n fold => exact h n
  | empty | char | anchor | ahead | behind => rfl
  | _ => simp_all [renumber, width]

theorem defect?_renumber (f : Nat → Nat) (noRepeats : Bool) (node : Node) :
    (node.renumber f).defect? noRepeats = node.defect? noRepeats := by
  induction node with
  | empty | char | anchor | reference => rfl
  | «repeat» greed low high body ih => simp only [renumber, defect?, ih]
  | _ => simp_all [renumber, defect?]

end Node

theorem renumber_joinItems (f : Nat → Nat) (items : Items) :
    (joinItems items).renumber f
      = joinItems (items.map fun item => (item.1.renumber f, item.2)) := by
  induction items using List.reverseRecOn with
  | nil => rfl
  | append_singleton items item ih =>
    cases items with
    | nil => rfl
    | cons last items =>
      rw [joinItems_append (List.cons_ne_nil _ _), Node.renumber, ih, List.map_append,
        List.map_singleton, joinItems_append (by simp)]

namespace Groups

/-- The groups behind one more, which has a name and is closed on an empty body. -/
def shifted (name : String) (g : Groups) : Groups where
  widths :=
    match g.widths with
    | [] => []
    | whole :: widths => whole :: some (0, 0) :: widths
  names := (name, 1) :: g.names.map fun entry => (entry.1, later entry.2)
  behind := g.behind.map (· + 1)
  mentions := g.mentions

variable {name : String} {g g₁ : Groups} {n : Nat} {r : Reader}

theorem count_shifted (nonempty : 0 < g.count) : (g.shifted name).count = g.count + 1 := by
  obtain ⟨widths, names, behind, mentions⟩ := g
  cases widths with
  | nil => exact absurd nonempty (Nat.lt_irrefl 0)
  | cons whole widths => rfl

theorem getElem?_shifted (g : Groups) (n : Nat) :
    (g.shifted name).widths[later n]? = g.widths[n]? := by
  obtain ⟨widths, names, behind, mentions⟩ := g
  cases widths with
  | nil => rfl
  | cons whole widths => cases n <;> rfl

theorem isClosed_shifted (g : Groups) (n : Nat) :
    (g.shifted name).isClosed (later n) = g.isClosed n := by
  rw [isClosed, isClosed, getElem?_shifted]

theorem widthOf_shifted (g : Groups) (n : Nat) :
    (g.shifted name).widthOf (later n) = g.widthOf n := by
  rw [widthOf, widthOf, getElem?_shifted]

theorem lookup_shifted {other : String} (h : other ≠ name) :
    (g.shifted name).names.lookup other = (g.names.lookup other).map later := by
  have mapped : ∀ names : List (String × Nat),
      (names.map fun entry => (entry.1, later entry.2)).lookup other
        = (names.lookup other).map later := by
    intro names
    induction names with
    | nil => rfl
    | cons entry names ih =>
      rw [List.map_cons, List.lookup_cons, List.lookup_cons, ih]
      cases other == entry.1 <;> rfl
  show ((name, 1) :: _).lookup other = _
  rw [List.lookup_cons, beq_false_of_ne h]
  exact mapped g.names

theorem checkBehind_shifted (h : g.checkBehind n r = .ok ()) (r' : Reader) :
    (g.shifted name).checkBehind (later n) r' = .ok () := by
  unfold checkBehind at h ⊢
  cases behind : g.behind with
  | none => simp [shifted, behind]
  | some count =>
    simp only [behind] at h
    have closed : g.isClosed n = true := by
      cases hc : g.isClosed n with
      | true => rfl
      | false =>
        rw [hc] at h
        cases h
    rw [closed] at h
    simp only [Bool.not_true, Bool.false_eq_true, ↓reduceIte] at h
    split at h
    · cases h
    rename_i before
    have before' : ¬later n ≥ count + 1 := Nat.not_le.mpr (later_lt (Nat.not_le.mp before))
    have behind' : (g.shifted name).behind = some (count + 1) := by simp [shifted, behind]
    simp only [behind', isClosed_shifted, closed, Bool.not_true, Bool.false_eq_true, ↓reduceIte,
      before']

theorem opened_shifted {own : Option String} (nonempty : 0 < g.count) (h : own ≠ some name)
    (opened : g.opened own r = .ok (n, g₁)) (r' : Reader) :
    (g.shifted name).opened own r' = .ok (later n, g₁.shifted name) := by
  have number : later g.count = (g.shifted name).count := by
    rw [later_of_pos nonempty, count_shifted nonempty]
  have wider : ∀ names, ({ g with widths := g.widths ++ [none], names := names }).shifted name
      = { g.shifted name with
          widths := (g.shifted name).widths ++ [none]
          names := (name, 1) :: names.map fun entry => (entry.1, later entry.2) } := by
    intro names
    obtain ⟨widths, names', behind, mentions⟩ := g
    cases widths with
    | nil => exact absurd nonempty (Nat.lt_irrefl 0)
    | cons whole widths => rfl
  unfold Groups.opened at opened ⊢
  cases own with
  | none =>
    cases opened
    rw [number, wider]
    rfl
  | some own =>
    have other : own ≠ name := fun same => h (by rw [same])
    dsimp only at opened ⊢
    cases new : g.names.lookup own with
    | some former =>
      rw [new] at opened
      cases opened
    | none =>
      rw [new] at opened
      cases opened
      rw [lookup_shifted other, new, wider]
      simp only [Option.map_none, ← number, List.map_append]
      rfl

theorem close_shifted (g : Groups) (n : Nat) (width : Nat × Nat) :
    (g.close n width).shifted name = (g.shifted name).close (later n) width := by
  obtain ⟨widths, names, behind, mentions⟩ := g
  cases widths with
  | nil => rfl
  | cons whole widths => cases n <;> rfl

end Groups

/-! ## References by number -/

/-- Whether a group whose bracket is stepped over is a branch that depends on a group by its
number. -/
def branchesByNumber : List Char → Bool
  | '?' :: '(' :: rest => !Text.isIdentifier (rest.takeWhile (· != ')'))
  | _ => false

/-- Whether the text of a pattern refers to a group by its number: by an escape that starts with a
digit from 1 to 9 and is no octal code, or in a branch. -/
def refersByNumber : List Char → Bool
  | [] => false
  | '\\' :: c :: rest => meansGroup c rest || refersByNumber rest
  | c :: rest => (c == '(' && branchesByNumber rest) || refersByNumber rest

variable {r r₁ r₂ : Reader} {symbol : Symbol}

theorem refersByNumber_plain {c : Char} (hc : c ≠ '\\') (rest : List Char) :
    refersByNumber (c :: rest) = ((c == '(' && branchesByNumber rest) || refersByNumber rest) := by
  rw [refersByNumber.eq_def]
  split
  · rename_i h
    cases h
  · rename_i h
    simp only [List.cons.injEq] at h
    exact absurd h.1 hc
  · rename_i h
    cases h
    rfl

theorem plain_ne_backslash {c : Char} (whole : Whole r.rest) (next : r.next = some (.plain c)) :
    c ≠ '\\' := by
  obtain ⟨p, s⟩ := r
  rcases whole.cases with hs | ⟨d, t, hd, hs⟩ | ⟨d, t, hs⟩ <;> simp only at hs <;> subst hs
  · cases next
  · rw [next_plain hd] at next
    cases next
    exact hd
  · cases next

/-- What is stepped over refers to nothing by number, and neither does what follows. -/
theorem refersByNumber_step (whole : Whole r.rest) (next : r.next = some symbol)
    (advance : r.advance = .ok r₁) (h : refersByNumber r.rest = false) :
    refersByNumber r₁.rest = false ∧ symbol.meansGroup r₁.rest = false
      ∧ (symbol = .plain '(' → branchesByNumber r₁.rest = false) := by
  rw [(rest_of_advance whole next advance).1] at h
  cases symbol with
  | plain c =>
    rw [Symbol.chars, List.singleton_append,
      refersByNumber_plain (plain_ne_backslash whole next), Bool.or_eq_false_iff] at h
    refine ⟨h.2, rfl, ?_⟩
    rintro ⟨⟩
    simpa using h.1
  | escaped c =>
    simp only [Symbol.chars, List.cons_append, List.nil_append, refersByNumber,
      Bool.or_eq_false_iff] at h
    refine ⟨h.2, h.1, ?_⟩
    intro bracket
    cases bracket

theorem refersByNumber_onward (onward : Onward r r₁) (whole : Whole r.rest)
    (h : refersByNumber r.rest = false) : refersByNumber r₁.rest = false := by
  induction onward with
  | refl => exact h
  | step next advance _ ih =>
    exact ih (whole_of_advance whole next advance) (refersByNumber_step whole next advance h).1

theorem openingAfter_branch {start : Nat} {name : String}
    (h : openingAfter start symbol r = .ok (.branch name, r₂)) :
    symbol = .plain '(' ∧ r.name ')' "group name" = .ok (name, r₂) := by
  unfold openingAfter at h
  split at h
  · obtain ⟨⟨named, r'⟩, -, h⟩ := bind_eq_ok_iff.mp h
    dsimp only at h
    split at h
    · obtain ⟨_, -, h⟩ := bind_eq_ok_iff.mp h
      obtain ⟨_, -, h⟩ := bind_eq_ok_iff.mp h
      cases h
    obtain ⟨⟨refers, r''⟩, -, h⟩ := bind_eq_ok_iff.mp h
    dsimp only at h
    split at h
    · obtain ⟨_, -, h⟩ := bind_eq_ok_iff.mp h
      obtain ⟨_, -, h⟩ := bind_eq_ok_iff.mp h
      cases h
    split at h
    · cases h
    · obtain ⟨_, -, h⟩ := bind_eq_ok_iff.mp h
      cases h
  · cases h
  · obtain ⟨⟨closed, r'⟩, -, h⟩ := bind_eq_ok_iff.mp h
    cases closed <;> cases h
  · cases h
  · cases h
  · split at h
    · cases h
    obtain ⟨r', -, h⟩ := bind_eq_ok_iff.mp h
    split at h <;> cases h
  · obtain ⟨⟨name', r'⟩, read, h⟩ := bind_eq_ok_iff.mp h
    cases h
    exact ⟨rfl, read⟩
  · cases h
  · dsimp only at h
    split at h
    · cases h
    obtain ⟨⟨modes, r'⟩, -, h⟩ := bind_eq_ok_iff.mp h
    cases modes <;> cases h

/-- Only a question mark and a second bracket begin a branch. -/
theorem opening_branch {name : String} (whole : Whole r.rest)
    (h : opening r = .ok (.branch name, r₂)) :
    ∃ r₁ : Reader, r.rest = '?' :: '(' :: r₁.rest ∧ Whole r₁.rest
      ∧ r₁.name ')' "group name" = .ok (name, r₂) := by
  rw [opening_eq] at h
  obtain ⟨⟨special, r'⟩, mark, h⟩ := bind_eq_ok_iff.mp h
  cases special with
  | false => cases h
  | true =>
    obtain ⟨next, advance⟩ := accept_true mark
    obtain ⟨rest, whole'⟩ := rest_of_advance whole next advance
    simp only [Bool.not_true, Bool.false_eq_true, ↓reduceIte] at h
    split at h
    · cases h
    rename_i symbol next'
    obtain ⟨r₁, advance', h⟩ := bind_eq_ok_iff.mp h
    obtain ⟨rest', whole₁⟩ := rest_of_advance whole' next' advance'
    obtain ⟨rfl, read⟩ := openingAfter_branch h
    refine ⟨r₁, ?_, whole₁, read⟩
    rw [rest, rest']
    rfl

/-- A name without a backslash is all that stands before its terminator. -/
theorem takeUntil_eq_takeWhile {terminator : Char} {what : String} {fuel : Nat} {so s : List Char}
    (ht : terminator ≠ '\\') (whole : Whole r.rest)
    (plain : '\\' ∉ r.rest.takeWhile (· != terminator))
    (h : takeUntil terminator what fuel so r = .ok (s, r₁)) :
    s = so ++ r.rest.takeWhile (· != terminator) := by
  induction fuel generalizing r so with
  | zero => cases h
  | succ fuel ih =>
    unfold takeUntil at h
    split at h
    · split at h <;> cases h
    · rename_i c next
      obtain ⟨r', advance, h⟩ := bind_eq_ok_iff.mp h
      obtain ⟨rest, whole'⟩ := rest_of_advance whole next advance
      rw [rest, Symbol.chars, List.singleton_append] at plain ⊢
      split at h
      · rename_i last
        split at h
        · cases h
        · cases h
          simp [last]
      · rename_i inner
        rw [List.takeWhile_cons_of_pos (by simpa using inner)] at plain ⊢
        rw [ih whole' (fun mem => plain (List.mem_cons_of_mem c mem)) h, List.append_assoc]
        rfl
    · rename_i c next
      obtain ⟨r', advance, h⟩ := bind_eq_ok_iff.mp h
      rw [(rest_of_advance whole next advance).1, Symbol.chars, List.cons_append,
        List.takeWhile_cons_of_pos (by simpa using ht.symm)] at plain
      exact absurd List.mem_cons_self plain

theorem not_mem_of_isIdentifier {s : List Char} (h : Text.isIdentifier s = true) : '\\' ∉ s := by
  have part : Text.isIdentifierPart '\\'.toNat = false := by decide +kernel
  have start : Text.isIdentifierStart '\\'.toNat = false := by decide +kernel
  cases s with
  | nil => simp
  | cons c s =>
    simp only [Text.isIdentifier, Bool.and_eq_true, List.all_eq_true] at h
    intro mem
    rcases List.mem_cons.mp mem with rfl | mem
    · rw [start] at h
      cases h.1
    · have := h.2 _ mem
      rw [part] at this
      cases this

/-- A branch that depends on no group by number depends on one by name. -/
theorem Opens.branch_name {name : String} (h : Opens r (.branch name) r₂) (whole : Whole r.rest)
    (byName : refersByNumber r.rest = false) : Text.isIdentifier name.toList = true := by
  obtain ⟨r₁, next, advance, opened⟩ := h
  obtain ⟨-, -, branches⟩ := refersByNumber_step whole next advance byName
  obtain ⟨r₃, rest, whole₃, read⟩ := opening_branch (whole_of_advance whole next advance) opened
  have identifier := branches rfl
  rw [rest, branchesByNumber, Bool.not_eq_false'] at identifier
  obtain ⟨⟨s, r₄⟩, taken, h⟩ := bind_eq_ok_iff.mp read
  cases h
  rw [String.toList_ofList, takeUntil_eq_takeWhile (by decide) whole₃
    (not_mem_of_isIdentifier identifier) taken]
  exact identifier

end Neogrammar.Pattern
