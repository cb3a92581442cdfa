import Neogrammar.Proofs.Pattern.Within

/-!
# Beginnings of groups within a longer text

What an opening bracket begins is read alike where a bracket follows the text, and so is the bracket
that closes it.
-/
namespace Neogrammar.Pattern

open Reader

variable {r r₁ : Reader} {c : Char}

theorem modesOn_alike {fuel : Nat} {fuel' : Nat → List Char → Nat} {so : List Char}
    {letter : Char} (whole : Whole r.rest) (more : ∀ d suffix, fuel ≤ fuel' d suffix) :
    ReadsAlike r (modesOn fuel so letter r)
      fun d suffix => modesOn (fuel' d suffix) so letter (r.within d suffix) := by
  induction fuel generalizing fuel' r so letter with
  | zero => exact .error
  | succ fuel ih =>
    obtain ⟨fuel', more', rfl⟩ := exists_steps more
    unfold modesOn
    refine .ite (fun _ => .error) fun _ => .ite (fun _ => .error) fun _ => ?_
    cases next : r.next with
    | none => exact .error
    | some symbol =>
    simp only [next_within whole next]
    refine .step whole next fun r₁ _ whole₁ => ?_
    split
    · exact .okPair r₁ _ ')'
    · exact .okPair r₁ _ '-'
    · exact .okPair r₁ _ ':'
    · cases modeLetter? symbol with
      | some letter => exact ih whole₁ more'
      | none => exact .error

theorem modesOff_alike {fuel : Nat} {fuel' : Nat → List Char → Nat} {so : List Char}
    {letter : Char} (whole : Whole r.rest) (more : ∀ d suffix, fuel ≤ fuel' d suffix) :
    ReadsAlike r (modesOff fuel so letter r)
      fun d suffix => modesOff (fuel' d suffix) so letter (r.within d suffix) := by
  induction fuel generalizing fuel' r so letter with
  | zero => exact .error
  | succ fuel ih =>
    obtain ⟨fuel', more', rfl⟩ := exists_steps more
    unfold modesOff
    refine .ite (fun _ => .error) fun _ => ?_
    cases next : r.next with
    | none => exact .error
    | some symbol =>
    simp only [next_within whole next]
    refine .step whole next fun r₁ _ whole₁ => ?_
    refine .ite (fun _ => .ok r₁ _) fun _ => ?_
    cases modeLetter? symbol with
    | some letter => exact ih whole₁ more'
    | none => exact .error

/-- What follows the letters of modes to switch on. -/
def modeSwitchAfter (on : List Char) (stop : Char) (r : Reader) :
    Except Refusal (ModeSwitch × Reader) :=
  if stop = ')' then pure (.whole on, r)
  else if on.contains 't' then r.fail .globalFlagOn 1
  else if stop = ':' then pure (.scoped on [], r)
  else
    match r.next with
    | none => r.fail (.missing "flag") 0
    | some symbol => do
      let r ← r.advance
      match modeLetter? symbol with
      | none => r.fail (modeFault symbol "flag") symbol.length
      | some letter => do
        let (off, r) ← modesOff (r.rest.length + 1) [] letter r
        if off.contains 't' then r.fail .globalFlagOff 1
        else if on.any off.contains then r.fail .flagOnAndOff 1
        else pure (.scoped on off, r)

theorem modeSwitch_eq (first : Char) (r : Reader) :
    modeSwitch first r = if first = '-' then modeSwitchAfter [] '-' r
      else modesOn (r.rest.length + 1) [] first r >>= fun x => modeSwitchAfter x.1 x.2.1 x.2.2 :=
  rfl

theorem modeSwitchAfter_alike {on : List Char} (whole : Whole r.rest) :
    ReadsAlike r (modeSwitchAfter on c r)
      fun d suffix => modeSwitchAfter on c (r.within d suffix) := by
  unfold modeSwitchAfter
  refine .ite (fun _ => .ok r _) fun _ => .ite (fun _ => .error) fun _ => ?_
  refine .ite (fun _ => .ok r _) fun _ => ?_
  cases next : r.next with
  | none => exact .error
  | some symbol =>
  simp only [next_within whole next]
  refine .step whole next fun r₁ _ whole₁ => ?_
  cases modeLetter? symbol with
  | none => exact .error
  | some letter =>
  refine .bind whole₁ (modesOff_alike whole₁ fun _ suffix => steps_within r₁.rest suffix)
    fun off r₂ _ => ?_
  refine .ite (fun _ => .error) fun _ => ?_
  exact .ite (fun _ => .error) fun _ => .ok r₂ _

theorem modeSwitch_alike (whole : Whole r.rest) :
    ReadsAlike r (modeSwitch c r) fun d suffix => modeSwitch c (r.within d suffix) := by
  simp only [modeSwitch_eq]
  refine .ite (fun _ => modeSwitchAfter_alike whole) fun _ => ?_
  exact (modesOn_alike whole fun _ suffix => steps_within r.rest suffix).bindFrom
    fun ⟨on, stop, r₁⟩ onward => ⟨r₁, onward, modeSwitchAfter_alike (Onward.whole onward whole)⟩

/-- A name that is an identifier is one in any text. -/
theorem checkName_alike (name : String) (r : Reader) (kind : Opening) :
    ReadsAlike r (checkName name r >>= fun _ => .ok (kind, r)) fun d suffix =>
      checkName name (r.within d suffix) >>= fun _ => .ok (kind, r.within d suffix) := by
  unfold checkName
  by_cases identifier : Text.isIdentifier name.toList = true
  · simp only [if_pos identifier, ok_bind]
    exact .ok r kind
  · simp only [if_neg identifier]
    exact .error

theorem namedOpening_alike (whole : Whole r.rest) :
    ReadsAlike r (namedOpening r) fun d suffix => namedOpening (r.within d suffix) := by
  refine .bind whole (accept_alike (by decide) (by decide) whole) fun named r₁ whole₁ => ?_
  refine .ite (fun _ => ?_) fun _ => ?_
  · exact .bind whole₁ (name_alike whole₁) fun name r₂ _ => checkName_alike name r₂ _
  refine .bind whole₁ (accept_alike (by decide) (by decide) whole₁) fun refers r₂ whole₂ => ?_
  refine .ite (fun _ => ?_) fun _ => ?_
  · exact .bind whole₂ (name_alike whole₂) fun name r₃ _ => checkName_alike name r₃ _
  cases next : r₂.next with
  | none => exact .error
  | some symbol =>
  simp only [next_within whole₂ next]
  exact .step whole₂ next fun r₃ _ _ => .error

/-- The beginning of a group after its question mark and the symbol behind that. -/
def openingAfter (start : Nat) (symbol : Symbol) (r : Reader) :
    Except Refusal (Opening × Reader) :=
  match symbol with
  | .plain 'P' => namedOpening r
  | .plain ':' => pure (.scoped [] [], r)
  | .plain '#' => do
    let (closed, r) ← r.skipPast ')' (r.rest.length + 1)
    if closed then pure (.comment, r)
    else r.fail .unterminatedComment (r.position - start)
  | .plain '=' => pure (.ahead false, r)
  | .plain '!' => pure (.ahead true, r)
  | .plain '<' =>
    match r.next with
    | none => r.fail .unexpectedEnd 0
    | some symbol => do
      let r ← r.advance
      match symbol with
      | .plain '=' => pure (.behind false, r)
      | .plain '!' => pure (.behind true, r)
      | symbol => r.fail (.unknownExtension ("<" ++ symbol.text)) (symbol.length + 2)
  | .plain '(' => do
    let (name, r) ← r.name ')' "group name"
    pure (.branch name, r)
  | .plain '>' => pure (.atomic, r)
  | symbol =>
    let letter := if symbol = .plain '-' then some '-' else modeLetter? symbol
    match letter with
    | none => r.fail (.unknownExtension symbol.text) (symbol.length + 1)
    | some letter => do
      let (modes, r) ← modeSwitch letter r
      match modes with
      | .whole on => pure (.modes on, r)
      | .scoped on off => pure (.scoped on off, r)

theorem opening_eq (r : Reader) :
    opening r = r.accept '?' >>= fun special =>
      if !special.1 then .ok (.capture none, special.2)
      else
        match special.2.next with
        | none => special.2.fail .unexpectedEnd 0
        | some symbol => special.2.advance >>= openingAfter (r.position - 1) symbol := rfl

theorem openingAfter_alike {start : Nat} {start' : Nat → List Char → Nat} {symbol : Symbol}
    (whole : Whole r.rest) : ReadsAlike r (openingAfter start symbol r)
      fun d suffix => openingAfter (start' d suffix) symbol (r.within d suffix) := by
  unfold openingAfter
  split
  · exact namedOpening_alike whole
  · exact .ok r _
  · intro kind h
    obtain ⟨⟨closed, r'⟩, skipped, h⟩ := bind_eq_ok_iff.mp h
    cases closed with
    | false => cases h
    | true =>
      cases h
      refine ⟨skipPast_onward skipped, fun d suffix hs => ?_⟩
      have more := steps_within r.rest suffix
      simp only [rest_within, skipPast_alike whole more skipped d hs, ok_bind, ↓reduceIte]
      rfl
  · exact .ok r _
  · exact .ok r _
  · cases next : r.next with
    | none => exact .error
    | some symbol =>
    simp only [next_within whole next]
    refine .step whole next fun r₁ _ _ => ?_
    split
    · exact .ok r₁ _
    · exact .ok r₁ _
    · exact .error
  · exact .bind whole (name_alike whole) fun name r₁ _ => .ok r₁ _
  · exact .ok r _
  · dsimp only
    split
    · exact .error
    rename_i letter _
    refine .bind whole (modeSwitch_alike whole) fun modes r₁ _ => ?_
    cases modes <;> exact .ok r₁ _

theorem opening_alike (whole : Whole r.rest) :
    ReadsAlike r (opening r) fun d suffix => opening (r.within d suffix) := by
  simp only [opening_eq]
  refine .bind whole (accept_alike (by decide) (by decide) whole) fun special r₁ whole₁ => ?_
  refine .ite (fun _ => .ok r₁ _) fun _ => ?_
  cases next : r₁.next with
  | none => exact .error
  | some symbol =>
  simp only [next_within whole₁ next]
  exact .step whole₁ next fun r₂ _ whole₂ => openingAfter_alike whole₂

/-- The closing bracket of a group stands in the text itself. -/
theorem closing_eq_ok {start : Nat} (h : closing start r = .ok r₁) :
    r.next = some (.plain ')') ∧ r.advance = .ok r₁ := by
  obtain ⟨⟨closed, r'⟩, bracket, h⟩ := bind_eq_ok_iff.mp h
  cases closed with
  | false => cases h
  | true =>
    cases h
    exact accept_true bracket

theorem closing_next (next : r.next = some (.plain ')')) (advance : r.advance = .ok r₁)
    (start : Nat) : closing start r = .ok r₁ := by
  simp only [closing, accept_next next advance, ok_bind, ↓reduceIte, pure_eq_ok]

end Neogrammar.Pattern
