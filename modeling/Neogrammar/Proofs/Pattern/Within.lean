import Neogrammar.Pattern.Parse
import Neogrammar.Proofs.Pattern.Reader

/-!
# Reading within a longer text

What is read from a text is read in the same way where the text is followed by a bracket, at any
position: no part of a pattern looks past the end of the text for anything a bracket could be taken
for. Two things are read on to the end of the text and so not told here: a comment up to the end of
its line, and the alternatives themselves.
-/
namespace Neogrammar.Pattern

/-- A symbol as it is written. -/
def Symbol.chars : Symbol → List Char
  | .plain c => [c]
  | .escaped c => ['\\', c]

/-- A text that begins with a bracket. -/
inductive Bracketed : List Char → Prop where
  | opening (rest : List Char) : Bracketed ('(' :: rest)
  | closing (rest : List Char) : Bracketed (')' :: rest)

theorem Bracketed.whole {suffix : List Char} (h : Bracketed suffix) : Reader.Whole suffix := by
  cases h <;> exact Reader.whole_cons (by decide)

namespace Reader

/-- The reader at the same place of a text that begins `d` characters earlier and goes on
with `suffix`. -/
def within (d : Nat) (suffix : List Char) (r : Reader) : Reader :=
  ⟨r.position + d, r.rest ++ suffix⟩

/-- One reader is reached from another by steps over symbols. -/
inductive Onward : Reader → Reader → Prop where
  | refl (r : Reader) : Onward r r
  | step {r r₁ r₂ : Reader} {symbol : Symbol} (next : r.next = some symbol)
      (advance : r.advance = .ok r₁) (more : Onward r₁ r₂) : Onward r r₂

variable {r r₁ r₂ : Reader} {symbol : Symbol} {c : Char} {d : Nat} {suffix : List Char}

/-- The three shapes of a text that a reader may stand in front of. -/
theorem Whole.cases {s : List Char} (whole : Whole s) :
    s = [] ∨ (∃ c t, c ≠ '\\' ∧ s = c :: t) ∨ ∃ c t, s = '\\' :: c :: t := by
  match s with
  | [] => exact .inl rfl
  | c :: t =>
    by_cases hc : c = '\\'
    · subst hc
      match t with
      | [] => exact absurd rfl whole
      | c :: t => exact .inr (.inr ⟨c, t, rfl⟩)
    · exact .inr (.inl ⟨c, t, hc, rfl⟩)

theorem settle_eq_ok {p : Nat} {s : List Char} (h : settle p s = .ok r) :
    r = ⟨p, s⟩ ∧ Whole s := by
  unfold settle at h
  split at h
  · cases h
  · rename_i whole
    cases h
    exact ⟨rfl, whole⟩

/-- What is stepped over is what is next. -/
theorem rest_of_advance (whole : Whole r.rest) (next : r.next = some symbol)
    (h : r.advance = .ok r₁) : r.rest = symbol.chars ++ r₁.rest ∧ Whole r₁.rest := by
  obtain ⟨p, s⟩ := r
  rcases whole.cases with hs | ⟨c, t, hc, hs⟩ | ⟨c, t, hs⟩ <;> simp only at hs <;> subst hs
  · cases next
  · rw [next_plain hc] at next
    cases next
    have settled : settle (p + 1) t = .ok r₁ := by
      rw [← h]
      unfold advance
      split <;> simp_all
    obtain ⟨rfl, rest_whole⟩ := settle_eq_ok settled
    exact ⟨rfl, rest_whole⟩
  · cases next
    obtain ⟨rfl, rest_whole⟩ := settle_eq_ok (show settle (p + 2) t = .ok r₁ from h)
    exact ⟨rfl, rest_whole⟩

theorem whole_of_advance (whole : Whole r.rest) (next : r.next = some symbol)
    (h : r.advance = .ok r₁) : Whole r₁.rest := (rest_of_advance whole next h).2

theorem next_eq_none_iff : r.next = none ↔ r.rest = [] := by
  obtain ⟨p, s⟩ := r
  unfold next
  split <;> simp_all

theorem length_of_advance (whole : Whole r.rest) (next : r.next = some symbol)
    (h : r.advance = .ok r₁) : r₁.rest.length < r.rest.length := by
  rw [(rest_of_advance whole next h).1, List.length_append]
  cases symbol <;> simp [Symbol.chars]

namespace Onward

theorem trans (h : Onward r r₁) (more : Onward r₁ r₂) : Onward r r₂ := by
  induction h with
  | refl => exact more
  | step next advance _ ih => exact .step next advance (ih more)

theorem one (next : r.next = some symbol) (advance : r.advance = .ok r₁) : Onward r r₁ :=
  .step next advance (.refl r₁)

theorem whole (h : Onward r r₁) (start : Whole r.rest) : Whole r₁.rest := by
  induction h with
  | refl => exact start
  | step next advance _ ih => exact ih (whole_of_advance start next advance)

theorem length_le (h : Onward r r₁) (start : Whole r.rest) :
    r₁.rest.length ≤ r.rest.length := by
  induction h with
  | refl => exact Nat.le_refl _
  | step next advance _ ih =>
    have := length_of_advance start next advance
    have := ih (whole_of_advance start next advance)
    omega

/-- What is left further on ends the text. -/
theorem ends (h : Onward r r₁) (start : Whole r.rest) : r₁.rest <:+ r.rest := by
  induction h with
  | refl => exact List.suffix_rfl
  | step next advance _ ih =>
    obtain ⟨rest, whole⟩ := rest_of_advance start next advance
    exact (ih whole).trans ⟨_, rest.symm⟩

/-- Nothing is left behind the end. -/
theorem rest_eq_nil (h : Onward r r₁) (start : Whole r.rest) (stop : r.rest = []) :
    r₁.rest = [] := by
  have := h.length_le start
  rw [stop] at this
  exact List.length_eq_zero_iff.mp (by simpa using this)

end Onward

theorem whole_append {s : List Char} (whole : Whole s) (hs : Bracketed suffix) :
    Whole (s ++ suffix) := by
  cases s with
  | nil => exact hs.whole
  | cons c s => exact whole.append (by simp) suffix

@[simp] theorem rest_within : (r.within d suffix).rest = r.rest ++ suffix := rfl

/-- The longer text leaves no fewer steps. -/
theorem steps_within (s suffix : List Char) : s.length + 1 ≤ (s ++ suffix).length + 1 := by
  rw [List.length_append]
  omega

theorem whole_within (whole : Whole r.rest) (hs : Bracketed suffix) :
    Whole (r.within d suffix).rest := whole_append whole hs

/-- What comes next comes next in the longer text. -/
theorem next_within (whole : Whole r.rest) (next : r.next = some symbol) :
    (r.within d suffix).next = some symbol := by
  obtain ⟨p, s⟩ := r
  rcases whole.cases with hs | ⟨c, t, hc, hs⟩ | ⟨c, t, hs⟩ <;> simp only at hs <;> subst hs
  · cases next
  · rw [next_plain hc] at next
    exact (next_plain hc).trans next
  · exact next

/-- At the end of the text a bracket comes next. -/
theorem next_within_end (hs : Bracketed suffix) (stop : r.rest = []) :
    (r.within d suffix).next = some (.plain '(')
      ∨ (r.within d suffix).next = some (.plain ')') := by
  obtain ⟨p, s⟩ := r
  simp only at stop
  subst stop
  cases hs with
  | opening rest => exact .inl (next_plain (by decide))
  | closing rest => exact .inr (next_plain (by decide))

theorem advance_within (whole : Whole r.rest) (hs : Bracketed suffix)
    (next : r.next = some symbol) (h : r.advance = .ok r₁) :
    (r.within d suffix).advance = .ok (r₁.within d suffix) := by
  have rest_whole := whole_within (d := d) (whole_of_advance whole next h) hs
  obtain ⟨p, s⟩ := r
  rcases whole.cases with he | ⟨c, t, hc, he⟩ | ⟨c, t, he⟩ <;> simp only at he <;> subst he
  · cases next
  · have settled : settle (p + 1) t = .ok r₁ := by
      rw [← h]
      unfold advance
      split <;> simp_all
    obtain ⟨rfl, -⟩ := settle_eq_ok settled
    have step : (⟨p + d, c :: (t ++ suffix)⟩ : Reader).advance = .ok ⟨p + d + 1, t ++ suffix⟩ :=
      advance_plain hc rest_whole
    simp only [within, List.cons_append, step]
    rw [show p + d + 1 = p + 1 + d by omega]
  · obtain ⟨rfl, -⟩ := settle_eq_ok (show settle (p + 2) t = .ok r₁ from h)
    have step : (⟨p + d, '\\' :: c :: (t ++ suffix)⟩ : Reader).advance
        = .ok ⟨p + d + 2, t ++ suffix⟩ := advance_escaped rest_whole
    simp only [within, List.cons_append, step]
    rw [show p + d + 2 = p + 2 + d by omega]

theorem next_of_sees (h : r.sees c = true) : r.next = some (.plain c) := by
  simpa [sees] using h

/-- A bracket aside, what is not seen is not seen in the longer text. -/
theorem sees_within (whole : Whole r.rest) (hs : Bracketed suffix) (left : c ≠ '(')
    (right : c ≠ ')') : (r.within d suffix).sees c = r.sees c := by
  cases next : r.next with
  | none =>
    rcases next_within_end (d := d) hs (next_eq_none_iff.mp next) with h | h <;>
      simp [sees, next, h, left.symm, right.symm]
  | some symbol => simp [sees, next, next_within whole next]

/-- A result that holds the reader where reading stopped. -/
class Placed (β : Type) where
  /-- It stopped onward from a reader, if it holds one. -/
  Onward : Reader → β → Prop
  /-- The result for the same place of a longer text. -/
  within : Nat → List Char → β → β
  trans {r r₁ : Reader} {b : β} : r.Onward r₁ → Onward r₁ b → Onward r b

instance : Placed Reader := ⟨Reader.Onward, within, .trans⟩

instance {α β : Type} [Placed β] : Placed (α × β) :=
  ⟨fun r x => Placed.Onward r x.2, fun d suffix x => (x.1, Placed.within d suffix x.2),
    Placed.trans⟩

instance {β : Type} [Placed β] : Placed (Option β) :=
  ⟨fun r x => ∀ b ∈ x, Placed.Onward r b, fun d suffix => Option.map (Placed.within d suffix),
    fun first rest b hb => Placed.trans first (rest b hb)⟩

/-- Whatever the first reading returns leads onward, and the second one returns the same for any
longer text. -/
def ReadsAlike {β : Type} [Placed β] (r : Reader) (x : Except Refusal β)
    (y : Nat → List Char → Except Refusal β) : Prop :=
  ∀ b, x = .ok b → Placed.Onward r b ∧
    ∀ d suffix, Bracketed suffix → y d suffix = .ok (Placed.within d suffix b)

namespace ReadsAlike

section
variable {α : Type} {a : α} {x : Except Refusal (α × Reader)}
  {y : Nat → List Char → Except Refusal (α × Reader)}

theorem of_eq_ok (hx : ReadsAlike r x y) (h : x = .ok (a, r₁)) : r.Onward r₁ ∧
    ∀ d suffix, Bracketed suffix → y d suffix = .ok (a, r₁.within d suffix) := hx _ h

theorem ok (r : Reader) (a : α) :
    ReadsAlike r (.ok (a, r)) fun d suffix => .ok (a, r.within d suffix) := by
  rintro _ ⟨⟩
  exact ⟨.refl r, fun _ _ _ => rfl⟩

end

variable {α β : Type} [Placed β] {x x' : Except Refusal β}
  {y y' : Nat → List Char → Except Refusal β}

/-- A result of two parts besides the reader. -/
theorem okPair {γ : Type} (r : Reader) (a : α) (b : γ) :
    ReadsAlike r (.ok (a, b, r)) fun d suffix => .ok (a, b, r.within d suffix) := by
  rintro _ ⟨⟩
  exact ⟨Onward.refl r, fun _ _ _ => rfl⟩

/-- Of a text that is refused nothing is said. -/
theorem error {e : Refusal} : ReadsAlike r (.error e) y := nofun

/-- One reading after another, from where the first one stopped. -/
theorem bindFrom {γ : Type} [Placed γ] {x : Except Refusal γ}
    {y : Nat → List Char → Except Refusal γ} {f : γ → Except Refusal β}
    {g : Nat → List Char → γ → Except Refusal β} (hx : ReadsAlike r x y)
    (hf : ∀ c, Placed.Onward r c → ∃ r₁, r.Onward r₁ ∧
      ReadsAlike r₁ (f c) fun d suffix => g d suffix (Placed.within d suffix c)) :
    ReadsAlike r (x >>= f) fun d suffix => y d suffix >>= g d suffix := by
  intro b h
  obtain ⟨c, first, h⟩ := bind_eq_ok_iff.mp h
  obtain ⟨onward, alike⟩ := hx c first
  obtain ⟨r₁, steps, rest⟩ := hf c onward
  obtain ⟨onward', alike'⟩ := rest b h
  refine ⟨Placed.trans steps onward', fun d suffix hs => ?_⟩
  dsimp only
  rw [alike d suffix hs]
  exact alike' d suffix hs

theorem bind {x : Except Refusal (α × Reader)} {y : Nat → List Char → Except Refusal (α × Reader)}
    {f : α × Reader → Except Refusal β} {g : Nat → List Char → α × Reader → Except Refusal β}
    (whole : Whole r.rest) (hx : ReadsAlike r x y) (hf : ∀ a r₁, Whole r₁.rest →
      ReadsAlike r₁ (f (a, r₁)) fun d suffix => g d suffix (a, r₁.within d suffix)) :
    ReadsAlike r (x >>= f) fun d suffix => y d suffix >>= g d suffix :=
  hx.bindFrom fun ⟨a, r₁⟩ onward => ⟨r₁, onward, hf a r₁ (Onward.whole onward whole)⟩

/-- A step over the next symbol, and a reading behind it. -/
theorem step {f : Reader → Except Refusal β} {g : Nat → List Char → Reader → Except Refusal β}
    (whole : Whole r.rest) (next : r.next = some symbol)
    (hf : ∀ r₁, r.advance = .ok r₁ → Whole r₁.rest →
      ReadsAlike r₁ (f r₁) fun d suffix => g d suffix (r₁.within d suffix)) :
    ReadsAlike r (r.advance >>= f) fun d suffix => (r.within d suffix).advance >>= g d suffix := by
  intro b h
  obtain ⟨r₁, advance, h⟩ := bind_eq_ok_iff.mp h
  obtain ⟨onward, alike⟩ := hf r₁ advance (whole_of_advance whole next advance) b h
  refine ⟨Placed.trans (.one next advance) onward, fun d suffix hs => ?_⟩
  dsimp only
  rw [advance_within whole hs next advance]
  exact alike d suffix hs

theorem ite {p : Prop} [Decidable p] (hx : p → ReadsAlike r x y) (hy : ¬p → ReadsAlike r x' y') :
    ReadsAlike r (if p then x else x') fun d suffix => if p then y d suffix else y' d suffix := by
  by_cases h : p
  · simpa only [if_pos h] using hx h
  · simpa only [if_neg h] using hy h

/-- Only what is read from a longer text matters of the second reading. -/
theorem congr (hx : ReadsAlike r x y)
    (h : ∀ d suffix, Bracketed suffix → y' d suffix = y d suffix) : ReadsAlike r x y' := by
  intro b hb
  obtain ⟨onward, alike⟩ := hx b hb
  exact ⟨onward, fun d suffix hs => (h d suffix hs).trans (alike d suffix hs)⟩

end ReadsAlike

/-- Where there are more steps everywhere, one may be taken everywhere. -/
theorem exists_steps {fuel : Nat} {fuel' : Nat → List Char → Nat}
    (more : ∀ d suffix, fuel + 1 ≤ fuel' d suffix) :
    ∃ n : Nat → List Char → Nat, (∀ d suffix, fuel ≤ n d suffix)
      ∧ fuel' = fun d suffix => n d suffix + 1 := by
  refine ⟨fun d suffix => fuel' d suffix - 1, fun d suffix => Nat.le_sub_one_of_lt (more d suffix),
    ?_⟩
  funext d suffix
  have := more d suffix
  dsimp only
  omega

variable {p : Char → Bool} {b : Bool} {s : List Char}

theorem accept_alike (left : c ≠ '(') (right : c ≠ ')') (whole : Whole r.rest) :
    ReadsAlike r (r.accept c) fun d suffix => (r.within d suffix).accept c := by
  have same (d suffix) (hs : Bracketed suffix) : (r.within d suffix).accept c =
      if r.sees c then (r.within d suffix).advance >>= fun r => pure (true, r)
      else .ok (false, r.within d suffix) := by
    rw [accept, sees_within whole hs left right]
  refine ReadsAlike.congr ?_ same
  exact .ite (fun sees => .step whole (next_of_sees sees) fun r₁ _ _ => .ok r₁ true)
    fun _ => .ok r false

theorem accept_true (h : r.accept c = .ok (true, r₁)) :
    r.next = some (.plain c) ∧ r.advance = .ok r₁ := by
  unfold accept at h
  split at h
  · rename_i sees
    obtain ⟨r', advance, h⟩ := bind_eq_ok_iff.mp h
    cases h
    exact ⟨next_of_sees sees, advance⟩
  · cases h

theorem accept_false (h : r.accept c = .ok (false, r₁)) :
    r.next ≠ some (.plain c) ∧ r₁ = r := by
  unfold accept at h
  split at h
  · obtain ⟨r', -, h⟩ := bind_eq_ok_iff.mp h
    cases h
  · rename_i unseen
    cases h
    exact ⟨fun next => unseen (by simp [sees, next]), rfl⟩

theorem accept_next (next : r.next = some (.plain c)) (advance : r.advance = .ok r₁) :
    r.accept c = .ok (true, r₁) := by
  have seen : r.sees c = true := by simp [sees, next]
  simp only [accept, seen, ↓reduceIte, advance]
  rfl

/-- Characters of a kind without brackets; the limit may also grow where it is never reached. -/
theorem takeWhile_alike {limit : Nat} {limit' : Nat → List Char → Nat} (left : p '(' = false)
    (right : p ')' = false) (whole : Whole r.rest)
    (room : ∀ d suffix, limit' d suffix = limit ∨ r.rest.length ≤ limit ∧ limit ≤ limit' d suffix) :
    ReadsAlike r (takeWhile p limit r)
      fun d suffix => takeWhile p (limit' d suffix) (r.within d suffix) := by
  have stops {r : Reader} {n d suffix} (hs : Bracketed suffix) (stop : r.rest = []) :
      takeWhile p n (r.within d suffix) = .ok ([], r.within d suffix) := by
    cases n with
    | zero => rfl
    | succ n => rcases next_within_end (d := d) hs stop with next | next <;>
        simp [takeWhile, next, left, right]
  induction limit generalizing limit' r with
  | zero =>
    refine (ReadsAlike.ok r []).congr fun d suffix hs => ?_
    rcases room d suffix with none_left | ⟨short, -⟩
    · rw [none_left, takeWhile]
    · exact stops hs (List.length_eq_zero_iff.mp (by omega))
  | succ limit ih =>
    have more (d suffix) : limit + 1 ≤ limit' d suffix := by
      have := room d suffix
      omega
    obtain ⟨limit', -, rfl⟩ := exists_steps more
    cases next : r.next with
    | none =>
      rw [takeWhile, next]
      exact (ReadsAlike.ok r []).congr fun d suffix hs => stops hs (next_eq_none_iff.mp next)
    | some symbol =>
      simp only [takeWhile, next, next_within whole next]
      cases symbol with
      | escaped c => exact .ok r []
      | plain c =>
        refine .ite (fun _ => ?_) fun _ => .ok r []
        refine .step whole next fun r₁ advance whole₁ => ?_
        have shorter := length_of_advance whole next advance
        refine .bind whole₁ (ih whole₁ fun d suffix => ?_) fun more r₂ _ => .ok r₂ (c :: more)
        have := room d suffix
        dsimp only at this
        omega

theorem takeUntil_alike {terminator : Char} {what : String} {fuel : Nat}
    {fuel' : Nat → List Char → Nat} {so : List Char} (whole : Whole r.rest)
    (more : ∀ d suffix, fuel ≤ fuel' d suffix) :
    ReadsAlike r (takeUntil terminator what fuel so r)
      fun d suffix => takeUntil terminator what (fuel' d suffix) so (r.within d suffix) := by
  induction fuel generalizing fuel' r so with
  | zero => exact .error
  | succ fuel ih =>
    obtain ⟨fuel', more', rfl⟩ := exists_steps more
    unfold takeUntil
    cases next : r.next with
    | none =>
      dsimp only
      split <;> exact .error
    | some symbol =>
      simp only [next_within whole next]
      cases symbol with
      | plain c =>
        refine .step whole next fun r₁ _ whole₁ => ?_
        refine .ite (fun _ => ?_) fun _ => ih whole₁ more'
        exact .ite (fun _ => .error) fun _ => .ok r₁ so
      | escaped c => exact .step whole next fun r₁ _ whole₁ => ih whole₁ more'

theorem name_alike {terminator : Char} {what : String} (whole : Whole r.rest) :
    ReadsAlike r (r.name terminator what)
      fun d suffix => (r.within d suffix).name terminator what :=
  .bind whole (takeUntil_alike whole fun _ suffix => steps_within r.rest suffix)
    fun s r₁ _ => .ok r₁ (String.ofList s)

/-- Skipping that found what it looked for. -/
theorem skipPast_alike {fuel fuel' : Nat} (whole : Whole r.rest) (more : fuel ≤ fuel')
    (h : skipPast c fuel r = .ok (true, r₁)) (d : Nat) (hs : Bracketed suffix) :
    skipPast c fuel' (r.within d suffix) = .ok (true, r₁.within d suffix) := by
  induction fuel generalizing fuel' r with
  | zero => cases h
  | succ fuel ih =>
    obtain ⟨fuel', rfl⟩ : ∃ n, fuel' = n + 1 := ⟨fuel' - 1, by omega⟩
    have more' : fuel ≤ fuel' := by omega
    unfold skipPast at h ⊢
    cases next : r.next with
    | none =>
      rw [next] at h
      cases h
    | some symbol =>
      simp only [next, next_within whole next] at h ⊢
      obtain ⟨r', advance, h⟩ := bind_eq_ok_iff.mp h
      rw [advance_within whole hs next advance, ok_bind]
      split at h
      · rename_i found
        cases h
        rw [if_pos found, pure_eq_ok]
      · rename_i other
        rw [if_neg other]
        exact ih (whole_of_advance whole next advance) more' h

/-- Skipping that found nothing went on to the end. -/
theorem skipPast_end {fuel : Nat} (whole : Whole r.rest) (enough : r.rest.length < fuel)
    (h : skipPast c fuel r = .ok (false, r₁)) : r₁.rest = [] := by
  induction fuel generalizing r with
  | zero => omega
  | succ fuel ih =>
    unfold skipPast at h
    split at h
    · rename_i next
      cases h
      exact next_eq_none_iff.mp next
    · rename_i symbol next
      obtain ⟨r', advance, h⟩ := bind_eq_ok_iff.mp h
      have := length_of_advance whole next advance
      split at h
      · cases h
      · exact ih (whole_of_advance whole next advance) (by omega) h

theorem skipPast_onward {fuel : Nat} (h : skipPast c fuel r = .ok (b, r₁)) : Onward r r₁ := by
  induction fuel generalizing r with
  | zero =>
    cases h
    exact .refl _
  | succ fuel ih =>
    unfold skipPast at h
    split at h
    · cases h
      exact .refl _
    · rename_i symbol next
      obtain ⟨r', advance, h⟩ := bind_eq_ok_iff.mp h
      split at h
      · cases h
        exact .one next advance
      · exact .step next advance (ih h)

end Reader
end Neogrammar.Pattern
