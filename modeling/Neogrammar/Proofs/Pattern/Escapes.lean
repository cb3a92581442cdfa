import Neogrammar.Proofs.Pattern.Within

/-!
# Escapes and sets within a longer text

An escape or a set that is read on its own is read alike where a bracket follows the text. Only an
escape that means a group by its number looks at the groups there are.
-/
namespace Neogrammar.Pattern

open Reader

variable {r r₁ : Reader} {m : Modes} {c : Char}

/-! ## Escapes -/

theorem octalEscape_alike (whole : Whole r.rest) :
    ReadsAlike r (octalEscape c r) fun d suffix => octalEscape c (r.within d suffix) := by
  refine .bind whole (takeWhile_alike (by decide) (by decide) whole fun _ _ => .inl rfl)
    fun digits r₁ _ => ?_
  exact .ite (fun _ => .error) fun _ => .ok r₁ _

/-- A code of a fixed count of digits, after its letter. -/
def codeDigits (letter : Char) (count : Nat) (r : Reader) : Except Refusal (Nat × Reader) := do
  let (digits, r) ← r.takeWhile isHex count
  if digits.length = count then
    let c := numeral 16 digits
    if c ≥ Text.codeLimit then .error .codeTooLarge
    else if c > 0x10FFFF then r.fail (.badEscape (escapeText letter digits)) (count + 2)
    else pure (c, r)
  else r.fail (.incompleteEscape (escapeText letter digits)) (digits.length + 2)

/-- The name of a character in braces, looked up in a table. -/
def codeName (named : String → Option Nat) (r : Reader) : Except Refusal (Nat × Reader) := do
  let (opened, r) ← r.accept '\x7b'
  if !opened then r.fail (.missing "\x7b") 0
  else
    let (name, r) ← r.name '\x7d' "character name"
    match named name with
    | some c => pure (c, r)
    | none => r.fail (.undefinedCharacter name) (name.length + 4)

/-- What a letter makes of an escape does not depend on what follows it. -/
theorem codeEscape?_eq (c : Char) :
    (∀ r, codeEscape? c r = none) ∨ (∃ count, ∀ r, codeEscape? c r = some (codeDigits c count r))
      ∨ ∀ r, codeEscape? c r = some (codeName Text.characterNamed? r) := by
  unfold codeEscape?
  -- the table itself plays no part
  generalize Text.characterNamed? = named
  split
  · exact .inr (.inl ⟨2, fun _ => rfl⟩)
  · exact .inr (.inl ⟨4, fun _ => rfl⟩)
  · exact .inr (.inl ⟨8, fun _ => rfl⟩)
  · exact .inr (.inr fun _ => rfl)
  · exact .inl fun _ => rfl

theorem codeDigits_alike {count : Nat} (whole : Whole r.rest) :
    ReadsAlike r (codeDigits c count r) fun d suffix => codeDigits c count (r.within d suffix) := by
  refine .bind whole (takeWhile_alike (by decide) (by decide) whole fun _ _ => .inl rfl)
    fun digits r₁ _ => ?_
  refine .ite (fun _ => ?_) fun _ => .error
  refine .ite (fun _ => .error) fun _ => ?_
  exact .ite (fun _ => .error) fun _ => .ok r₁ _

theorem codeName_alike {named : String → Option Nat} (whole : Whole r.rest) :
    ReadsAlike r (codeName named r) fun d suffix => codeName named (r.within d suffix) := by
  refine .bind whole (accept_alike (by decide) (by decide) whole) fun opened r₁ whole₁ => ?_
  refine .ite (fun _ => .error) fun _ => ?_
  refine .bind whole₁ (name_alike whole₁) fun name r₂ _ => ?_
  dsimp only
  cases named name with
  | some code => exact .ok r₂ code
  | none => exact .error

/-- Any escape by code or name. -/
theorem codeEscape?_alike {result : Except Refusal (Nat × Reader)} (whole : Whole r.rest)
    (h : codeEscape? c r = some result) :
    ∃ result' : Nat → List Char → Except Refusal (Nat × Reader),
      (∀ d suffix, codeEscape? c (r.within d suffix) = some (result' d suffix))
        ∧ ReadsAlike r result result' := by
  rcases codeEscape?_eq c with code | ⟨count, code⟩ | code <;> rw [code] at h
  · cases h
  · cases h
    exact ⟨_, fun d suffix => code _, codeDigits_alike whole⟩
  · cases h
    exact ⟨_, fun d suffix => code _, codeName_alike whole⟩

theorem codeEscape?_none (h : codeEscape? c r = none) (r' : Reader) : codeEscape? c r' = none := by
  rcases codeEscape?_eq c with code | ⟨count, code⟩ | code
  · exact code r'
  · rw [code] at h
    cases h
  · rw [code] at h
    cases h

theorem setEscape_alike (whole : Whole r.rest) :
    ReadsAlike r (setEscape m c r) fun d suffix => setEscape m c (r.within d suffix) := by
  unfold setEscape
  cases controlEscape? c with
  | some code => exact .ok r _
  | none =>
  cases classEscape? m.ascii c with
  | some k => exact .ok r _
  | none =>
  cases code : codeEscape? c r with
  | some result =>
    obtain ⟨result', code', alike⟩ := codeEscape?_alike whole code
    simp only [code']
    exact .bind whole alike fun code r₁ _ => .ok r₁ _
  | none =>
    simp only [codeEscape?_none code]
    refine .ite (fun _ => ?_) fun _ => .ite (fun _ => .error) fun _ => .ok r _
    exact .bind whole (octalEscape_alike whole) fun code r₁ _ => .ok r₁ _

/-! ## Sets -/

theorem setMember_alike {symbol : Symbol} (whole : Whole r.rest) :
    ReadsAlike r (setMember m symbol r) fun d suffix => setMember m symbol (r.within d suffix) := by
  cases symbol with
  | plain c => exact .ok r _
  | escaped c => exact setEscape_alike whole

theorem setItems_alike {here fuel : Nat} {here' fuel' : Nat → List Char → Nat}
    {so : List SetItem} (whole : Whole r.rest) (more : ∀ d suffix, fuel ≤ fuel' d suffix) :
    ReadsAlike r (setItems m here fuel so r)
      fun d suffix => setItems m (here' d suffix) (fuel' d suffix) so (r.within d suffix) := by
  induction fuel generalizing fuel' r so with
  | zero => exact .error
  | succ fuel ih =>
    obtain ⟨fuel', more', rfl⟩ := exists_steps more
    unfold setItems
    cases next : r.next with
    | none => exact .error
    | some low =>
    simp only [next_within whole next]
    refine .step whole next fun r₁ _ whole₁ => ?_
    refine .ite (fun _ => .ok r₁ _) fun _ => ?_
    refine .bind whole₁ (setMember_alike whole₁) fun first r₂ whole₂ => ?_
    refine .bind whole₂ (accept_alike (by decide) (by decide) whole₂) fun dash r₃ whole₃ => ?_
    refine .ite (fun _ => ih whole₃ more') fun _ => ?_
    cases next₃ : r₃.next with
    | none => exact .error
    | some high =>
    simp only [next_within whole₃ next₃]
    refine .step whole₃ next₃ fun r₄ _ whole₄ => ?_
    refine .ite (fun _ => .ok r₄ _) fun _ => ?_
    refine .bind whole₄ (setMember_alike whole₄) fun last r₅ whole₅ => ?_
    dsimp only
    match first, last with
    | .single a, .single b => exact .ite (fun _ => .error) fun _ => ih whole₅ more'
    | .single a, .range _ _ | .single a, .kind _ | .range _ _, _ | .kind _, _ => exact .error

theorem set_alike (whole : Whole r.rest) :
    ReadsAlike r (set m r) fun d suffix => set m (r.within d suffix) := by
  refine .bind whole (accept_alike (by decide) (by decide) whole) fun negated r₁ whole₁ => ?_
  exact .bind whole₁ (setItems_alike whole₁ fun _ suffix => steps_within r₁.rest suffix)
    fun items r₂ _ => .ok r₂ _

/-! ## Escapes outside sets -/

/-- What an escape that starts with a digit from 1 to 9 stands for. -/
inductive Numbered where
  | code (c : Nat)
  | group (n digits : Nat)

/-- Read the digits of such an escape, before any group is looked at. -/
def numbered (letter : Char) (r : Reader) : Except Refusal (Numbered × Reader) :=
  match r.next with
  | some (.plain d) =>
    if d.isDigit then do
      let r ← r.advance
      match r.next with
      | some (.plain e) =>
        if isOctal letter && isOctal d && isOctal e then do
          let r ← r.advance
          let c := numeral 8 [letter, d, e]
          if c > 0o377 then r.fail (.octalOutOfRange (escapeText letter [d, e])) 4
          else pure (.code c, r)
        else pure (.group (numeral 10 [letter, d]) 2, r)
      | _ => pure (.group (numeral 10 [letter, d]) 2, r)
    else pure (.group (numeral 10 [letter]) 1, r)
  | _ => pure (.group (numeral 10 [letter]) 1, r)

/-- The item of such an escape. -/
def Numbered.item (m : Modes) (g : Groups) (r : Reader) : Numbered → Except Refusal (Node × Reader)
  | .code c => .ok (.char (.literal c m.fold), r)
  | .group n digits => reference m g n digits r

theorem numberEscape_eq (m : Modes) (g : Groups) (letter : Char) (r : Reader) :
    numberEscape m g letter r = numbered letter r >>= fun x => x.1.item m g x.2 := by
  unfold numberEscape numbered
  rcases r.next with _ | (d | c)
  · rfl
  · cases digit : d.isDigit with
    | false => simp only [digit, Bool.false_eq_true, ↓reduceIte, pure_eq_ok, ok_bind, Numbered.item]
    | true =>
      cases r.advance with
      | error e =>
        simp only [digit, ↓reduceIte]
        rfl
      | ok r' =>
        simp only [digit, ↓reduceIte, ok_bind]
        rcases r'.next with _ | (e | c)
        · rfl
        · cases octal : isOctal letter && isOctal d && isOctal e with
          | false =>
            simp only [octal, Bool.false_eq_true, ↓reduceIte, pure_eq_ok, ok_bind, Numbered.item]
          | true =>
            cases r'.advance with
            | error e =>
              simp only [octal, ↓reduceIte]
              rfl
            | ok r'' =>
              simp only [octal, ↓reduceIte, ok_bind]
              by_cases large : numeral 8 [letter, d, e] > 0o377
              · rw [if_pos large, if_pos large]
                rfl
              · rw [if_neg large, if_neg large]
                rfl
        · rfl
  · rfl

theorem numbered_alike (whole : Whole r.rest) :
    ReadsAlike r (numbered c r) fun d suffix => numbered c (r.within d suffix) := by
  cases next : r.next with
  | none =>
    rw [numbered, next]
    refine (ReadsAlike.ok r _).congr fun d suffix hs => ?_
    rcases next_within_end (d := d) hs (next_eq_none_iff.mp next) with last | last <;>
      rw [numbered, last] <;> rfl
  | some symbol =>
  simp only [numbered, next, next_within whole next]
  cases symbol with
  | escaped e => exact .ok r _
  | plain e =>
  refine .ite (fun _ => ?_) fun _ => .ok r _
  refine .step whole next fun r₁ _ whole₁ => ?_
  cases next₁ : r₁.next with
  | none =>
    refine (ReadsAlike.ok r₁ _).congr fun d suffix hs => ?_
    have left : isOctal '(' = false := by decide
    have right : isOctal ')' = false := by decide
    rcases next_within_end (d := d) hs (next_eq_none_iff.mp next₁) with last | last <;>
      simp only [last, left, right, Bool.and_false, Bool.false_eq_true, ↓reduceIte] <;> rfl
  | some symbol =>
  simp only [next_within whole₁ next₁]
  cases symbol with
  | escaped e' => exact .ok r₁ _
  | plain e' =>
  refine .ite (fun _ => ?_) fun _ => .ok r₁ _
  refine .step whole₁ next₁ fun r₂ _ _ => ?_
  exact .ite (fun _ => .error) fun _ => .ok r₂ _

/-- A letter that a number starts with. -/
def startsNumber (c : Char) : Bool := c.isDigit && c != '0'

/-- Whether the letter of an escape and what follows are three octal digits. -/
def isOctalCode (letter : Char) : List Char → Bool
  | d :: e :: _ => isOctal letter && isOctal d && isOctal e
  | _ => false

/-- Whether an escape means a group by its number. -/
def meansGroup (letter : Char) (rest : List Char) : Bool :=
  startsNumber letter && !isOctalCode letter rest

theorem isDigit_of_isOctal {d : Char} (h : isOctal d = true) : d.isDigit = true := by
  simp only [isOctal, Char.isDigit, Bool.and_eq_true, decide_eq_true_eq] at h ⊢
  exact ⟨h.1, Char.le_trans h.2 (by decide)⟩

/-- Three octal digits make a character. -/
theorem numbered_octal {x : Numbered} (octal : isOctalCode c r.rest = true)
    (h : numbered c r = .ok (x, r₁)) : ∃ n, x = .code n := by
  obtain ⟨p, s⟩ := r
  match s, octal, h with
  | d :: e :: s, octal, h =>
    rw [isOctalCode] at octal
    have digits : isOctal d = true ∧ isOctal e = true := by
      simp only [Bool.and_eq_true] at octal
      exact ⟨octal.1.2, octal.2⟩
    have plain : ∀ {d : Char}, isOctal d = true → d ≠ '\\' := by
      rintro _ h rfl
      exact absurd h (by decide)
    unfold numbered at h
    simp only [next_plain (plain digits.1), isDigit_of_isOctal digits.1, ↓reduceIte,
      advance_plain (plain digits.1) (whole_cons (plain digits.2)), ok_bind,
      next_plain (plain digits.2), octal] at h
    obtain ⟨r₂, -, h⟩ := bind_eq_ok_iff.mp h
    split at h
    · cases h
    · cases h
      exact ⟨_, rfl⟩

theorem reference_eq_ok {g : Groups} {n digits : Nat} {node : Node}
    (h : reference m g n digits r = .ok (node, r₁)) :
    r₁ = r ∧ node = .reference n m.fold ∧ n < g.count := by
  unfold reference at h
  split at h
  · rename_i lt
    split at h
    · cases h
    · obtain ⟨_, -, h⟩ := bind_eq_ok_iff.mp h
      cases h
      exact ⟨rfl, rfl, lt⟩
  · cases h

theorem itemEscape_number {g : Groups} (hc : startsNumber c = true) (r : Reader) :
    itemEscape m g c r = numberEscape m g c r >>= fun x => .ok (x.1, .plain, x.2) := by
  have anchor : anchorEscape? m.ascii c = none := by
    unfold anchorEscape?
    split <;> first | rfl | exact absurd hc (by decide)
  have kind : classEscape? m.ascii c = none := by
    unfold classEscape?
    split <;> first | rfl | exact absurd hc (by decide)
  have control : controlEscape? c = none := by
    unfold controlEscape?
    split <;> first | rfl | exact absurd hc (by decide)
  have code : codeEscape? c r = none := by
    unfold codeEscape?
    split <;> first | rfl | exact absurd hc (by decide)
  simp only [startsNumber, Bool.and_eq_true, bne_iff_ne] at hc
  simp only [itemEscape, anchor, kind, control, code, hc.1, hc.2, ↓reduceIte, pure_eq_ok]

/-- An escape that is no number has nothing to do with groups. -/
theorem itemEscape_alike (g g' : Groups) (whole : Whole r.rest) (hc : startsNumber c = false) :
    ReadsAlike r (itemEscape m g c r) fun d suffix => itemEscape m g' c (r.within d suffix) := by
  unfold itemEscape
  cases anchorEscape? m.ascii c with
  | some place => exact .okPair r _ _
  | none =>
  cases classEscape? m.ascii c with
  | some k => exact .okPair r _ _
  | none =>
  cases controlEscape? c with
  | some code => exact .okPair r _ _
  | none =>
  cases code : codeEscape? c r with
  | some result =>
    obtain ⟨result', code', alike⟩ := codeEscape?_alike whole code
    simp only [code']
    exact .bind whole alike fun code r₁ _ => .okPair r₁ _ _
  | none =>
    simp only [codeEscape?_none code]
    refine .ite (fun _ => ?_) fun zero => .ite (fun digit => ?_) fun _ => ?_
    · exact .bind whole (octalEscape_alike whole) fun code r₁ _ => .okPair r₁ _ _
    · simp [startsNumber, digit, zero] at hc
    · exact .ite (fun _ => .error) fun _ => .okPair r _ _

/-- It tests a character or a place. -/
theorem itemEscape_tests {g : Groups} {node : Node} {kind : ItemKind}
    (hc : startsNumber c = false) (h : itemEscape m g c r = .ok (node, kind, r₁)) :
    kind = .plain ∧ (∃ test, node = .char test)
      ∨ kind = .anchor ∧ ∃ place, node = .anchor place := by
  unfold itemEscape at h
  split at h
  · cases h
    exact .inr ⟨rfl, _, rfl⟩
  split at h
  · cases h
    exact .inl ⟨rfl, _, rfl⟩
  split at h
  · cases h
    exact .inl ⟨rfl, _, rfl⟩
  split at h
  · obtain ⟨_, -, h⟩ := bind_eq_ok_iff.mp h
    cases h
    exact .inl ⟨rfl, _, rfl⟩
  split at h
  · obtain ⟨_, -, h⟩ := bind_eq_ok_iff.mp h
    cases h
    exact .inl ⟨rfl, _, rfl⟩
  rename_i zero
  split at h
  · rename_i digit
    simp [startsNumber, digit, zero] at hc
  split at h
  · cases h
  · cases h
    exact .inl ⟨rfl, _, rfl⟩

/-- An escape that means no group has nothing to do with groups. -/
theorem itemEscape_groupless {g : Groups} {node : Node} {kind : ItemKind} (whole : Whole r.rest)
    (hc : meansGroup c r.rest = false) (h : itemEscape m g c r = .ok (node, kind, r₁)) :
    (kind = .plain ∧ (∃ test, node = .char test) ∨ kind = .anchor ∧ ∃ place, node = .anchor place)
      ∧ ∀ d suffix, Bracketed suffix → ∀ g',
        itemEscape m g' c (r.within d suffix) = .ok (node, kind, r₁.within d suffix) := by
  cases number : startsNumber c with
  | false =>
    exact ⟨itemEscape_tests number h, fun d suffix hs g' =>
      (itemEscape_alike g g' whole number _ h).2 d suffix hs⟩
  | true =>
    have octal : isOctalCode c r.rest = true := by simpa [meansGroup, number] using hc
    rw [itemEscape_number number, numberEscape_eq] at h
    obtain ⟨⟨node₁, r₂⟩, h, last⟩ := bind_eq_ok_iff.mp h
    obtain ⟨⟨x, r₃⟩, read, item⟩ := bind_eq_ok_iff.mp h
    obtain ⟨n, rfl⟩ := numbered_octal octal read
    cases item
    cases last
    refine ⟨.inl ⟨rfl, _, rfl⟩, fun d suffix hs g' => ?_⟩
    rw [itemEscape_number number, numberEscape_eq,
      ((numbered_alike whole).of_eq_ok read).2 d suffix hs]
    rfl

/-- An escape that is a number takes the same place, whatever group it means. -/
theorem itemEscape_numbered {g : Groups} {node : Node} {kind : ItemKind} (whole : Whole r.rest)
    (hc : startsNumber c = true) (h : itemEscape m g c r = .ok (node, kind, r₁)) :
    Onward r r₁ ∧ kind = .plain ∧ ((∃ test, node = .char test)
        ∨ ∃ n fold, node = .reference n fold ∧ n < g.count)
      ∧ ∀ d suffix, Bracketed suffix → ∀ g' node' kind' r',
        itemEscape m g' c (r.within d suffix) = .ok (node', kind', r') →
          kind' = .plain ∧ r' = r₁.within d suffix := by
  rw [itemEscape_number hc, numberEscape_eq] at h
  obtain ⟨⟨node₁, r₂⟩, number, last⟩ := bind_eq_ok_iff.mp h
  obtain ⟨rfl, rfl, rfl⟩ : node₁ = node ∧ ItemKind.plain = kind ∧ r₂ = r₁ := by simpa using last
  obtain ⟨⟨x, r₃⟩, read, item⟩ := bind_eq_ok_iff.mp number
  obtain ⟨onward, alike⟩ := (numbered_alike whole).of_eq_ok read
  have same : r₂ = r₃ ∧ ((∃ test, node₁ = .char test)
      ∨ ∃ n fold, node₁ = .reference n fold ∧ n < g.count) := by
    cases x with
    | code c =>
      cases item
      exact ⟨rfl, .inl ⟨_, rfl⟩⟩
    | group n digits =>
      obtain ⟨hr, hn, lt⟩ := reference_eq_ok item
      exact ⟨hr, .inr ⟨n, m.fold, hn, lt⟩⟩
  obtain ⟨rfl, shape⟩ := same
  refine ⟨onward, rfl, shape, ?_⟩
  intro d suffix hs g' node' kind' r' h'
  rw [itemEscape_number hc, numberEscape_eq] at h'
  obtain ⟨⟨node₂, r₄⟩, number', last⟩ := bind_eq_ok_iff.mp h'
  cases last
  rw [alike d suffix hs, ok_bind] at number'
  refine ⟨rfl, ?_⟩
  cases x with
  | code c =>
    cases number'
    rfl
  | group n digits => exact (reference_eq_ok number').1

end Neogrammar.Pattern
