import Neogrammar.Proofs.Pattern.Within

/-!
# Repeats within a longer text

The bounds of a repeat and the mark behind them are read alike where a bracket follows the text.
-/
namespace Neogrammar.Pattern

open Reader

variable {r r₁ : Reader}

/-- The end of bounds whose digits are read. -/
def closeBounds (here : Nat) (low high : List Char) (r : Reader) :
    Except Refusal (Option (Bounds × Reader)) := do
  let (closed, r) ← r.accept '\x7d'
  if !closed then pure none
  else do
    let least ← repeatBound low
    let most ← repeatBound high
    match most with
    | none => pure (some (⟨least.getD 0, none⟩, r))
    | some n =>
      if n < least.getD 0 then r.fail .repeatBounds (r.position - here)
      else pure (some (⟨least.getD 0, some n⟩, r))

theorem bracedBounds_eq (r : Reader) :
    bracedBounds r = if r.sees '\x7d' then .ok none
      else r.takeWhile Char.isDigit r.rest.length >>= fun low => low.2.accept ',' >>= fun comma =>
        if comma.1 then comma.2.takeWhile Char.isDigit comma.2.rest.length >>= fun high =>
          closeBounds r.position low.1 high.1 high.2
        else closeBounds r.position low.1 low.1 comma.2 := rfl

theorem none_alike (r : Reader) :
    ReadsAlike r (.ok (none : Option (Bounds × Reader))) fun _ _ => .ok none := by
  rintro _ ⟨⟩
  exact ⟨nofun, fun _ _ _ => rfl⟩

theorem some_alike (r : Reader) (bounds : Bounds) :
    ReadsAlike r (.ok (some (bounds, r)))
      fun d suffix => .ok (some (bounds, r.within d suffix)) := by
  rintro _ ⟨⟩
  refine ⟨?_, fun _ _ _ => rfl⟩
  rintro _ ⟨⟩
  exact Onward.refl r

theorem closeBounds_alike {here : Nat} {here' : Nat → List Char → Nat} {low high : List Char}
    (whole : Whole r.rest) : ReadsAlike r (closeBounds here low high r)
      fun d suffix => closeBounds (here' d suffix) low high (r.within d suffix) := by
  refine .bind whole (accept_alike (by decide) (by decide) whole) fun closed r₁ _ => ?_
  refine .ite (fun _ => none_alike r₁) fun _ => ?_
  cases repeatBound low with
  | error e => exact .error
  | ok least =>
  cases repeatBound high with
  | error e => exact .error
  | ok most =>
  cases most with
  | none => exact some_alike r₁ _
  | some n => exact .ite (fun _ => .error) fun _ => some_alike r₁ _

/-- Bounds are read alike, and so are braces that hold none. -/
theorem bracedBounds_alike (whole : Whole r.rest) :
    ReadsAlike r (bracedBounds r) fun d suffix => bracedBounds (r.within d suffix) := by
  have digits {r : Reader} (whole : Whole r.rest) :
      ReadsAlike r (r.takeWhile Char.isDigit r.rest.length) fun d suffix =>
        (r.within d suffix).takeWhile Char.isDigit (r.within d suffix).rest.length := by
    refine takeWhile_alike (by decide) (by decide) whole fun d suffix => .inr ?_
    rw [rest_within, List.length_append]
    omega
  rw [bracedBounds_eq]
  refine ReadsAlike.congr (.ite (fun _ => none_alike r) fun _ => ?_) fun d suffix hs => by
    rw [bracedBounds_eq, sees_within whole hs (by decide) (by decide)]
  refine .bind whole (digits whole) fun low r₁ whole₁ => ?_
  refine .bind whole₁ (accept_alike (by decide) (by decide) whole₁) fun comma r₂ whole₂ => ?_
  refine .ite (fun _ => ?_) fun _ => closeBounds_alike whole₂
  exact .bind whole₂ (digits whole₂) fun high r₃ whole₃ => closeBounds_alike whole₃

/-- The mark after a repeat that tells how greedy it is. -/
def greedMark (r : Reader) : Except Refusal (Greed × Reader) := do
  let (lazy, r) ← r.accept '?'
  if lazy then pure (.lazy, r)
  else
    let (possessive, r) ← r.accept '+'
    pure (if possessive then .possessive else .greedy, r)

theorem repeatLast_plain (bounds : Bounds) (here : Nat) (node : Node)
    (rest : List (Node × ItemKind)) (r : Reader) :
    repeatLast bounds here ((node, .plain) :: rest) r = greedMark r >>= fun mark =>
      .ok ((.repeat mark.1 bounds.low bounds.high node, .repeated) :: rest, mark.2) := by
  cases lazy : r.accept '?' with
  | error e => simp [repeatLast, greedMark, lazy, bind, Except.bind]
  | ok x =>
    obtain ⟨b, r'⟩ := x
    cases b with
    | true => simp [repeatLast, greedMark, lazy, pure_eq_ok]
    | false =>
      cases possessive : r'.accept '+' with
      | error e => simp [repeatLast, greedMark, lazy, possessive, bind, Except.bind]
      | ok y => simp [repeatLast, greedMark, lazy, possessive, pure_eq_ok]

theorem greedMark_alike (whole : Whole r.rest) :
    ReadsAlike r (greedMark r) fun d suffix => greedMark (r.within d suffix) := by
  refine .bind whole (accept_alike (by decide) (by decide) whole) fun lazy r₁ whole₁ => ?_
  refine .ite (fun _ => .ok r₁ _) fun _ => ?_
  exact .bind whole₁ (accept_alike (by decide) (by decide) whole₁) fun possessive r₂ _ => .ok r₂ _

/-- Only an item that may be repeated is repeated. -/
theorem repeatLast_eq_ok {bounds : Bounds} {here : Nat} {items items' : List (Node × ItemKind)}
    (h : repeatLast bounds here items r = .ok (items', r₁)) :
    ∃ node rest greed, items = (node, .plain) :: rest
      ∧ items' = (.repeat greed bounds.low bounds.high node, .repeated) :: rest
      ∧ greedMark r = .ok (greed, r₁) := by
  match items with
  | [] => cases h
  | (_, .anchor) :: _ => cases h
  | (_, .repeated) :: _ => cases h
  | (node, .plain) :: rest =>
    rw [repeatLast_plain] at h
    obtain ⟨⟨greed, r'⟩, mark, h⟩ := bind_eq_ok_iff.mp h
    cases h
    exact ⟨node, rest, greed, rfl, rfl, mark⟩

end Neogrammar.Pattern
