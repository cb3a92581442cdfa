import Mathlib.Data.List.Infix
import Neogrammar.Proofs.Pattern.Faults
import Neogrammar.Proofs.Text.Written

/-!
# Texts that are refused as patterns for no fault

Of the refusals of a pattern four are not told with a fault: a bound of a repeat past what can be
counted or written, a code past those of characters, and two alphabets at once. What such a refusal
is about stands in the text.
-/
namespace Neogrammar.Pattern

open Reader

/-- A bound of a repeat stands in a text, between the marks that set it apart. -/
structure BoundIn (s digits : List Char) : Prop where
  each : ∀ d ∈ digits, d.isDigit = true
  stands : ∃ left right, (left = '\x7b' ∨ left = ',') ∧ (right = ',' ∨ right = '\x7d') ∧
    left :: digits ++ [right] <:+: s

/-- Modes for the whole pattern are switched on in a text. -/
def SwitchIn (s on : List Char) : Prop := '(' :: '?' :: on ++ [')'] <:+: s

/-- What stands in a text that is refused without a fault. -/
inductive Unfit (s : List Char) : Refusal → Prop
  | numeral {digits : List Char} (bound : BoundIn s digits)
      (long : Text.digitLimit < digits.length) : Unfit s (.numeralTooLong digits.length)
  | repetition {digits : List Char} (bound : BoundIn s digits)
      (large : repetitionLimit ≤ numeral 10 digits) : Unfit s .repetitionTooLarge
  | code {digits : List Char} (stands : '\\' :: 'U' :: digits <:+: s)
      (hex : ∀ d ∈ digits, isHex d = true) (eight : digits.length = 8)
      (large : Text.codeLimit ≤ numeral 16 digits) : Unfit s .codeTooLarge
  | alphabets {on on' : List Char} (first : SwitchIn s on) (ascii : 'a' ∈ on)
      (second : SwitchIn s on') (unicode : 'u' ∈ on') : Unfit s .rivalAlphabets

/-- A refusal with a fault, or for what stands in a text. -/
def Excused (s : List Char) (refusal : Refusal) : Prop := refusal.IsFault ∨ Unfit s refusal

section
variable {s t digits : List Char} {refusal : Refusal}

theorem BoundIn.mono (h : BoundIn s digits) (within : s <:+: t) : BoundIn t digits := by
  obtain ⟨left, right, hleft, hright, stands⟩ := h.stands
  exact ⟨h.each, left, right, hleft, hright, stands.trans within⟩

theorem Unfit.mono (h : Unfit s refusal) (within : s <:+: t) : Unfit t refusal := by
  cases h with
  | numeral bound long => exact .numeral (bound.mono within) long
  | repetition bound large => exact .repetition (bound.mono within) large
  | code stands hex eight large => exact .code (stands.trans within) hex eight large
  | alphabets first ascii second unicode =>
    exact .alphabets (first.trans within) ascii (second.trans within) unicode

variable {α : Type} {x : Except Refusal α}

theorem Faulty.excused (h : Faulty x) : FailsOnly (Excused s) x := h.mono fun _ => .inl

theorem excused_mono (h : FailsOnly (Excused s) x) (within : s <:+: t) : FailsOnly (Excused t) x :=
  h.mono fun _ excused => excused.imp_right (Unfit.mono · within)

end

variable {r r₁ r₂ : Reader} {c : Char} {m : Modes} {g : Groups} {symbol : Symbol}

/-- Characters of a kind are taken from the front. -/
theorem Reader.rest_of_takeWhile {p : Char → Bool} {limit : Nat} {s : List Char}
    (whole : Whole r.rest) (h : takeWhile p limit r = .ok (s, r₁)) :
    r.rest = s ++ r₁.rest ∧ Whole r₁.rest ∧ ∀ d ∈ s, p d = true := by
  induction limit generalizing r s with
  | zero =>
    cases h
    exact ⟨rfl, whole, by simp⟩
  | succ limit ih =>
    unfold takeWhile at h
    split at h
    · rename_i d next
      split at h
      · rename_i hd
        obtain ⟨r', advance, h⟩ := bind_eq_ok_iff.mp h
        obtain ⟨⟨more, r''⟩, read, h⟩ := bind_eq_ok_iff.mp h
        cases h
        obtain ⟨rest, whole'⟩ := rest_of_advance whole next advance
        obtain ⟨rest', whole'', each⟩ := ih whole' read
        exact ⟨by rw [rest, rest']; rfl, whole'', List.forall_mem_cons.mpr ⟨hd, each⟩⟩
      · cases h
        exact ⟨rfl, whole, by simp⟩
    · cases h
      exact ⟨rfl, whole, by simp⟩

/-! ## Codes -/

theorem digitValue_lt {d : Char} (h : isHex d = true) : digitValue d < 16 := by
  simp only [isHex, Bool.or_eq_true, Bool.and_eq_true, decide_eq_true_eq] at h
  unfold digitValue
  split_ifs with decimal small
  · have : d.toNat ≤ '9'.toNat := by
      simp only [Char.isDigit, Bool.and_eq_true, decide_eq_true_eq] at decimal
      exact decimal.2
    simp only [Char.reduceToNat] at *
    omega
  · have : d.toNat ≤ 'f'.toNat := by
      rcases h with (digit | lower) | upper
      · exact absurd digit decimal
      · exact lower.2
      · exact Nat.le_trans upper.2 (by decide)
    simp only [Char.reduceToNat] at *
    omega
  · have : d.toNat ≤ 'F'.toNat := by
      rcases h with (digit | lower) | upper
      · exact absurd digit decimal
      · exact absurd lower.1 small
      · exact upper.2
    simp only [Char.reduceToNat] at *
    omega

/-- Up to four digits do not make a code that is too large. -/
theorem numeral_lt_codeLimit {digits : List Char} (hex : ∀ d ∈ digits, isHex d = true)
    (few : digits.length ≤ 4) : numeral 16 digits < Text.codeLimit := by
  have each : ∀ v ∈ digits.map digitValue, v < 16 := by
    simpa using fun d hd => digitValue_lt (hex d hd)
  calc numeral 16 digits < 16 ^ digits.length := by
        simpa [numeral] using Text.ofDigits_lt each
    _ ≤ 16 ^ 4 := Nat.pow_le_pow_right (by decide) few
    _ ≤ Text.codeLimit := by decide

/-- Only a code of eight digits may be too large. -/
theorem excused_codeDigits {count : Nat} (whole : Whole r.rest)
    (counts : count ≤ 4 ∨ count = 8 ∧ c = 'U') :
    FailsOnly (Excused ('\\' :: c :: r.rest)) (codeDigits c count r) := by
  refine (faulty_takeWhile isHex count r).excused.bind fun ⟨digits, r'⟩ read => ?_
  obtain ⟨rest, -, hex⟩ := rest_of_takeWhile whole read
  dsimp only
  split
  · rename_i all
    split
    · rename_i large
      rcases counts with few | ⟨eight, rfl⟩
      · exact absurd (numeral_lt_codeLimit hex (all ▸ few)) (Nat.not_lt.mpr large)
      · refine .error (.inr (.code ?_ hex (all.trans eight) large))
        rw [rest]
        exact ⟨[], r'.rest, rfl⟩
    · split
      · exact (r'.faulty_fail _ _).excused
      · exact .ok _
  · exact (r'.faulty_fail _ _).excused

theorem excused_codeEscape? {x : Except Refusal (Nat × Reader)} (whole : Whole r.rest)
    (h : codeEscape? c r = some x) : FailsOnly (Excused ('\\' :: c :: r.rest)) x := by
  unfold codeEscape? at h
  -- the table itself plays no part
  generalize Text.characterNamed? = named at h
  split at h
  · cases h
    exact excused_codeDigits whole (.inl (by decide))
  · cases h
    exact excused_codeDigits whole (.inl (by decide))
  · cases h
    exact excused_codeDigits whole (.inr ⟨rfl, rfl⟩)
  · cases h
    exact (faulty_codeName named r).excused
  · cases h

theorem excused_itemEscape (m : Modes) (g : Groups) (whole : Whole r.rest) :
    FailsOnly (Excused ('\\' :: c :: r.rest)) (itemEscape m g c r) := by
  unfold itemEscape
  split
  · exact .ok _
  split
  · exact .ok _
  split
  · exact .ok _
  split
  · exact (excused_codeEscape? whole ‹_›).bind fun _ _ => .ok _
  split
  · exact (faulty_octalEscape c r).excused.bind fun _ _ => .ok _
  split
  · exact (faulty_numberEscape m g c r).excused.bind fun _ _ => .ok _
  split
  · exact (r.faulty_fail _ _).excused
  · exact .ok _

theorem excused_setEscape (m : Modes) (whole : Whole r.rest) :
    FailsOnly (Excused ('\\' :: c :: r.rest)) (setEscape m c r) := by
  unfold setEscape
  split
  · exact .ok _
  split
  · exact .ok _
  split
  · exact (excused_codeEscape? whole ‹_›).bind fun _ _ => .ok _
  split
  · exact (faulty_octalEscape c r).excused.bind fun _ _ => .ok _
  split
  · exact (r.faulty_fail _ _).excused
  · exact .ok _

/-! ## Sets -/

theorem excused_setMember (m : Modes) (whole : Whole r.rest) :
    FailsOnly (Excused (symbol.chars ++ r.rest)) (setMember m symbol r) := by
  cases symbol with
  | plain c => exact .ok _
  | escaped c => exact excused_setEscape m whole

/-- A member, as it stands before the reader. -/
theorem excused_member (m : Modes) (whole : Whole r.rest) (next : r.next = some symbol)
    (advance : r.advance = .ok r₁) : FailsOnly (Excused r.rest) (setMember m symbol r₁) := by
  obtain ⟨rest, whole₁⟩ := rest_of_advance whole next advance
  rw [rest]
  exact excused_setMember m whole₁

theorem excused_setItems (m : Modes) (here fuel : Nat) (items : List SetItem)
    (whole : Whole r.rest) : FailsOnly (Excused r.rest) (setItems m here fuel items r) := by
  induction fuel generalizing items r with
  | zero => exact (r.faulty_fail _ _).excused
  | succ fuel ih =>
    unfold setItems
    split
    · exact (r.faulty_fail _ _).excused
    rename_i low next
    refine r.faulty_advance.excused.bind fun r₁ advance => ?_
    have whole₁ := whole_of_advance whole next advance
    split
    · exact .ok _
    refine (excused_member m whole next advance).bind fun ⟨first, r₂⟩ member => ?_
    have onward₂ := (Onward.one next advance).trans ((setMember_alike whole₁).of_eq_ok member).1
    have whole₂ := onward₂.whole whole
    refine (r₂.faulty_accept _).excused.bind fun ⟨dash, r₃⟩ parted => ?_
    have onward₃ := onward₂.trans ((accept_alike (by decide) (by decide) whole₂).of_eq_ok parted).1
    have whole₃ := onward₃.whole whole
    have later (items : List SetItem) {r' : Reader} (onward : Onward r r') :
        FailsOnly (Excused r.rest) (setItems m here fuel items r') :=
      excused_mono (ih items (onward.whole whole)) (onward.ends whole).isInfix
    dsimp only
    split
    · exact later _ onward₃
    split
    · exact (r₃.faulty_fail _ _).excused
    rename_i high next₃
    refine r₃.faulty_advance.excused.bind fun r₄ advance₃ => ?_
    have whole₄ := whole_of_advance whole₃ next₃ advance₃
    split
    · exact .ok _
    refine FailsOnly.bind ?_ fun ⟨last, r₅⟩ member' => ?_
    · exact excused_mono (excused_member m whole₃ next₃ advance₃) (onward₃.ends whole).isInfix
    have onward₄ := ((setMember_alike whole₄).of_eq_ok member').1
    have onward₅ := onward₃.trans (.step next₃ advance₃ onward₄)
    dsimp only
    split
    · split
      · exact (r₅.faulty_fail _ _).excused
      · exact later _ onward₅
    · exact (r₅.faulty_fail _ _).excused

theorem excused_set (m : Modes) (whole : Whole r.rest) :
    FailsOnly (Excused r.rest) (set m r) := by
  refine (r.faulty_accept _).excused.bind fun ⟨negated, r₁⟩ caret => ?_
  have onward := ((accept_alike (by decide) (by decide) whole).of_eq_ok caret).1
  refine FailsOnly.bind ?_ fun _ _ => .ok _
  exact excused_mono (excused_setItems m _ _ _ (onward.whole whole)) (onward.ends whole).isInfix

/-! ## Bounds of repeats -/

theorem unfit_of_repeatBound {s digits : List Char} {refusal : Refusal} (bound : BoundIn s digits)
    (h : repeatBound digits = .error refusal) : Unfit s refusal := by
  unfold repeatBound at h
  split_ifs at h with empty long large
  · cases h
    exact .numeral bound long
  · cases h
    exact .repetition bound large

/-- The end of bounds, where they are set apart if they end there. -/
theorem excused_closeBounds {s low high : List Char} (here : Nat)
    (h : ∀ r₁, r.next = some (.plain '\x7d') → r.advance = .ok r₁ →
      BoundIn s low ∧ BoundIn s high) :
    FailsOnly (Excused s) (closeBounds here low high r) := by
  refine (r.faulty_accept _).excused.bind fun ⟨closed, r₁⟩ brace => ?_
  cases closed with
  | false => exact .ok _
  | true =>
    obtain ⟨least, most⟩ := h r₁ (accept_true brace).1 (accept_true brace).2
    refine FailsOnly.bind (fun e he => .inr (unfit_of_repeatBound least he)) fun _ _ => ?_
    refine FailsOnly.bind (fun e he => .inr (unfit_of_repeatBound most he)) fun bound _ => ?_
    cases bound with
    | none => exact .ok _
    | some n =>
      dsimp only
      split
      · exact (r₁.faulty_fail _ _).excused
      · exact .ok _

theorem excused_bracedBounds (whole : Whole r.rest) :
    FailsOnly (Excused ('\x7b' :: r.rest)) (bracedBounds r) := by
  rw [bracedBounds_eq]
  split
  · exact .ok _
  refine (faulty_takeWhile _ _ r).excused.bind fun ⟨low, r₂⟩ least => ?_
  obtain ⟨rest, whole₂, digits⟩ := rest_of_takeWhile whole least
  refine (r₂.faulty_accept _).excused.bind fun ⟨comma, r₃⟩ parted => ?_
  cases comma with
  | true =>
    obtain ⟨next, advance⟩ := accept_true parted
    obtain ⟨rest₂, whole₃⟩ := rest_of_advance whole₂ next advance
    refine (faulty_takeWhile _ _ r₃).excused.bind fun ⟨high, r₄⟩ most => ?_
    obtain ⟨rest₃, whole₄, digits'⟩ := rest_of_takeWhile whole₃ most
    refine excused_closeBounds _ fun r₅ next₄ advance₄ => ?_
    have rest₄ := (rest_of_advance whole₄ next₄ advance₄).1
    have text : r.rest = low ++ ',' :: (high ++ '\x7d' :: r₅.rest) := by
      rw [rest, rest₂, rest₃, rest₄]
      rfl
    rw [text]
    exact ⟨⟨digits, '\x7b', ',', .inl rfl, .inl rfl, [], high ++ '\x7d' :: r₅.rest, by simp⟩,
      digits', ',', '\x7d', .inr rfl, .inr rfl, '\x7b' :: low, r₅.rest, by simp⟩
  | false =>
    obtain ⟨-, rfl⟩ := accept_false parted
    refine excused_closeBounds _ fun r₅ next₄ advance₄ => ?_
    have rest₄ := (rest_of_advance whole₂ next₄ advance₄).1
    have bound : BoundIn ('\x7b' :: r.rest) low :=
      ⟨digits, '\x7b', '\x7d', .inl rfl, .inr rfl, [], r₅.rest, by simp [rest, rest₄, Symbol.chars]⟩
    exact ⟨bound, bound⟩

/-! ## Items and groups -/

theorem excused_readItem (m : Modes) (g : Groups) (items : Items) (whole : Whole r.rest) :
    FailsOnly (Excused (symbol.chars ++ r.rest)) (readItem m g items symbol r) := by
  unfold readItem
  cases symbol with
  | escaped c => exact (excused_itemEscape m g whole).bind fun _ _ => .ok _
  | plain c =>
    have behind : r.rest <:+: c :: r.rest := (List.suffix_cons c r.rest).isInfix
    refine .ite (fun _ => .ok _) fun _ => ?_
    refine .ite (fun _ => (faulty_skipPast _ _ r).excused.bind fun _ _ => .ok _) fun _ => ?_
    refine .ite (fun _ => ?_) fun _ => ?_
    · exact (excused_mono (excused_set m whole) behind).bind fun _ _ => .ok _
    refine .ite (fun _ => (faulty_repeatLast _ _ items r).excused) fun _ => ?_
    refine .ite (fun _ => (faulty_repeatLast _ _ items r).excused) fun _ => ?_
    refine .ite (fun _ => (faulty_repeatLast _ _ items r).excused) fun _ => ?_
    refine .ite (fun brace => ?_) fun _ => ?_
    · rw [brace]
      refine (excused_bracedBounds whole).bind fun found _ => ?_
      cases found with
      | none => exact .ok _
      | some _ => exact (faulty_repeatLast _ _ items _).excused
    · exact .ite (fun _ => .ok _) fun _ => .ite (fun _ => .ok _) fun _ =>
        .ite (fun _ => .ok _) fun _ => .ok _

variable {top : Bool} {P : Parsed} {so : Items} {kind : Opening}

/-- What follows the symbol that stopped a reading ends the text. -/
theorem Grown.suffix_past (grown : Grown g r P) (whole : Whole r.rest)
    (next : P.reader.next = some symbol) (advance : P.reader.advance = .ok r₁) :
    r₁.rest <:+ r.rest :=
  (grown.onward.trans (.one next advance)).ends whole

/-- So does what follows the symbol that stopped the body of a group. -/
theorem Opens.suffix_past (opens : Opens r kind r₂) (whole : Whole r.rest) (grown : Grown g r₂ P)
    (next : P.reader.next = some symbol) (advance : P.reader.advance = .ok r₁) :
    r₁.rest <:+ r.rest := by
  have onward := opens.onward whole
  exact (grown.suffix_past (onward.whole whole) next advance).trans (onward.ends whole)

/-- With fewer steps than `fuel`, but enough for what is left, every refusal is excused. -/
def ExcusedBelow (fuel : Nat) : Prop :=
  ∀ n < fuel,
    (∀ {top m g so r}, Whole r.rest → 4 * r.rest.length + 1 ≤ n →
      FailsOnly (Excused r.rest) (sequence n top m g so r)) ∧
    ∀ {top m g r}, Whole r.rest → 4 * r.rest.length + 2 ≤ n →
      FailsOnly (Excused r.rest) (alternatives n top m g r)

section
variable {fuel n : Nat} (below : ExcusedBelow fuel)
include below

/-- What is left further on is read with fewer steps. -/
theorem ExcusedBelow.items (less : n < fuel) (ends : r₁.rest <:+ r.rest) (whole : Whole r₁.rest)
    (enough : 4 * r₁.rest.length + 1 ≤ n) :
    FailsOnly (Excused r.rest) (sequence n top m g so r₁) :=
  excused_mono ((below n less).1 whole enough) ends.isInfix

theorem ExcusedBelow.parts (less : n < fuel) (ends : r₁.rest <:+ r.rest) (whole : Whole r₁.rest)
    (enough : 4 * r₁.rest.length + 2 ≤ n) :
    FailsOnly (Excused r.rest) (alternatives n top m g r₁) :=
  excused_mono ((below n less).2 whole enough) ends.isInfix

end

section
variable {fuel : Nat} (below : ExcusedBelow (fuel + 2)) (whole : Whole r.rest)
  (enough : 4 * r.rest.length + 1 ≤ fuel + 2)
include below whole enough

/-- An item is refused itself, or what follows it is. -/
theorem excused_item (next : r.next = some symbol) (isItem : symbol.IsItem) :
    FailsOnly (Excused r.rest) (sequence (fuel + 2) top m g so r) := by
  rw [sequence_item next isItem]
  refine r.faulty_advance.excused.bind fun r₁ advance => ?_
  obtain ⟨rest, whole₁⟩ := rest_of_advance whole next advance
  have shorter := length_of_advance whole next advance
  refine FailsOnly.bind (rest ▸ excused_readItem m g so whole₁) fun ⟨so', r₂⟩ read => ?_
  obtain ⟨edit, read, -⟩ := readItem_eq_ok_iff.mp read
  have onward₁ := readEdit_onward whole₁ read
  have short := onward₁.length_le whole₁
  have onward := (Onward.one next advance).trans onward₁
  exact below.items (by omega) (onward.ends whole) (onward.whole whole) (by dsimp only; omega)

/-- A group with a body. -/
theorem excused_enclosed {x : Except Refusal Enclosure} (opens : Opens r kind r₂)
    (encloses : enclosure? m g r₂ kind = some x) :
    FailsOnly (Excused r.rest) (sequence (fuel + 2) top m g so r) := by
  have onward := opens.onward whole
  have ends := onward.ends whole
  have whole₂ := onward.whole whole
  have shorter := opens.shorter whole
  obtain ⟨start, eq⟩ := sequence_enclosed opens encloses
  rw [eq]
  refine (faulty_enclosure? encloses).excused.bind fun e _ => ?_
  refine (below.parts (by omega) ends whole₂ (by omega)).bind fun body inner => ?_
  refine (faulty_closing _ _).excused.bind fun r₃ closes => ?_
  obtain ⟨last, past⟩ := closing_eq_ok closes
  have grown := (reads_of_alternatives whole₂ (by omega) inner).grown whole₂
  obtain ⟨-, whole₃, less⟩ := grown.past whole₂ last past
  exact below.items (by omega) (opens.suffix_past whole grown last past) whole₃ (by omega)

/-- A branch: its first side, and the second one if there is a bar. -/
theorem excused_branch {name : String} (opens : Opens r (.branch name) r₂) :
    FailsOnly (Excused r.rest) (sequence (fuel + 2) top m g so r) := by
  have onward := opens.onward whole
  have ends := onward.ends whole
  have whole₂ := onward.whole whole
  have shorter := opens.shorter whole
  obtain ⟨start, eq⟩ := sequence_branch (m := m) (g := g) opens
  rw [eq]
  refine (faulty_readBranch g name r₂).excused.bind fun x _ => ?_
  refine (below.items (by omega) ends whole₂ (by omega)).bind fun yes first => ?_
  have grown := (reads_of_sequence whole₂ (by omega) first).grown whole₂
  refine (yes.reader.faulty_accept _).excused.bind fun ⟨bar, r₃⟩ accepted => ?_
  cases bar with
  | true =>
    obtain ⟨next₃, past⟩ := accept_true accepted
    obtain ⟨-, whole₃, less⟩ := grown.past whole₂ next₃ past
    have ends₃ := opens.suffix_past whole grown next₃ past
    refine (below.items (by omega) ends₃ whole₃ (by omega)).bind fun no second => ?_
    have grown' := (reads_of_sequence whole₃ (by omega) second).grown whole₃
    refine .ite (fun _ => (no.reader.faulty_fail _ _).excused) fun _ => ?_
    refine (faulty_closing _ _).excused.bind fun r₄ closes => ?_
    obtain ⟨last, past'⟩ := closing_eq_ok closes
    obtain ⟨-, whole₄, less'⟩ := grown'.past whole₃ last past'
    exact below.items (by omega) ((grown'.suffix_past whole₃ last past').trans ends₃) whole₄
      (by omega)
  | false =>
    obtain ⟨-, rfl⟩ := accept_false accepted
    refine (faulty_closing _ _).excused.bind fun r₄ closes => ?_
    obtain ⟨last, past⟩ := closing_eq_ok closes
    obtain ⟨-, whole₄, less⟩ := grown.past whole₂ last past
    exact below.items (by omega) (opens.suffix_past whole grown last past) whole₄ (by omega)

/-- Whatever an opening bracket begins. -/
theorem excused_bracket (next : r.next = some (.plain '(')) :
    FailsOnly (Excused r.rest) (sequence (fuel + 2) top m g so r) := by
  cases advance : r.advance with
  | error e =>
    rw [sequence_opens_error next advance]
    exact .error (.inl (faulty_advance r e advance))
  | ok r₁ =>
  cases opened : opening r₁ with
  | error e =>
    rw [sequence_opens next advance, bracket, opened]
    exact .error (.inl (faulty_opening r₁ e opened))
  | ok x =>
  obtain ⟨kind, r₂⟩ := x
  have opens : Opens r kind r₂ := ⟨r₁, next, advance, opened⟩
  have ends := (opens.onward whole).ends whole
  have whole₂ := (opens.onward whole).whole whole
  have shorter := opens.shorter whole
  cases encloses : enclosure? m g r₂ kind with
  | some x => exact excused_enclosed below whole enough opens encloses
  | none =>
    rcases enclosure?_eq_none encloses with rfl | ⟨on, rfl⟩ | ⟨name, rfl⟩ | ⟨name, rfl⟩
    · rw [sequence_comment opens]
      exact below.items (by omega) ends whole₂ (by omega)
    · obtain ⟨back, eq⟩ := sequence_modes (m := m) (g := g) opens
      rw [eq]
      exact .ite (fun _ => (r₂.faulty_fail _ _).excused)
        fun _ => below.items (by omega) ends whole₂ (by omega)
    · rw [sequence_reference opens]
      refine (faulty_readReference m g name r₂).excused.bind fun _ _ => ?_
      exact below.items (by omega) ends whole₂ (by omega)
    · exact excused_branch below whole enough opens

end

theorem excused_below (fuel : Nat) : ExcusedBelow fuel := by
  induction fuel with
  | zero => exact fun n less => absurd less (Nat.not_lt_zero n)
  | succ fuel below =>
  intro n less
  rcases Nat.lt_succ_iff_lt_or_eq.mp less with earlier | rfl
  · exact below n earlier
  constructor
  · intro top m g so r whole enough
    by_cases stops : Stops r
    · exact .of_eq_ok (sequence_stop stops)
    have nonempty := length_pos_of_not_stops stops
    obtain ⟨fuel, rfl⟩ : ∃ k, n = k + 2 := ⟨n - 2, by omega⟩
    rcases next_of_not_stops stops with next | ⟨symbol, next, isItem⟩
    · exact excused_bracket below whole enough next
    · exact excused_item below whole enough next isItem
  · intro top m g r whole enough
    obtain ⟨fuel, rfl⟩ : ∃ k, n = k + 1 := ⟨n - 1, by omega⟩
    rw [alternatives_eq]
    refine FailsOnly.bind (below.items (Nat.lt_succ_self fuel) List.suffix_rfl whole (by omega))
      fun first one => ?_
    have grown := (reads_of_sequence whole (by omega) one).grown whole
    refine (first.reader.faulty_accept _).excused.bind fun ⟨bar, r₁⟩ accepted => ?_
    cases bar with
    | true =>
      obtain ⟨next, past⟩ := accept_true accepted
      obtain ⟨-, whole₁, less⟩ := grown.past whole next past
      refine FailsOnly.bind ?_ fun _ _ => .ok _
      exact below.parts (Nat.lt_succ_self fuel) (grown.suffix_past whole next past) whole₁
        (by dsimp only; omega)
    | false => exact .ok _

/-! ## Modes for the whole pattern -/

theorem eq_plain_of_modeLetter? (h : modeLetter? symbol = some c) : symbol = .plain c := by
  cases symbol with
  | plain d =>
    simp only [modeLetter?] at h
    split at h <;> cases h
    rfl
  | escaped d => cases h

theorem rest_of_modesOn {fuel : Nat} {so on : List Char} {letter : Char} (whole : Whole r.rest)
    (h : modesOn fuel so letter r = .ok (on, ')', r₁)) :
    ∃ more, on = so ++ letter :: more ∧ r.rest = more ++ ')' :: r₁.rest := by
  induction fuel generalizing so letter r with
  | zero => cases h
  | succ fuel ih =>
    unfold modesOn at h
    simp only at h
    split at h
    · cases h
    split at h
    · cases h
    split at h
    · cases h
    rename_i symbol next
    obtain ⟨r', advance, h⟩ := bind_eq_ok_iff.mp h
    obtain ⟨rest, whole'⟩ := rest_of_advance whole next advance
    split at h
    · cases h
      exact ⟨[], rfl, rest⟩
    · cases h
    · cases h
    · split at h
      · rename_i next_letter isLetter
        obtain ⟨more, rfl, rest'⟩ := ih whole' h
        refine ⟨next_letter :: more, by simp, ?_⟩
        rw [rest, rest', eq_plain_of_modeLetter? isLetter]
        rfl
      · cases h

theorem eq_of_modeSwitchAfter {on on' : List Char} {stop : Char}
    (h : modeSwitchAfter on stop r = .ok (.whole on', r₁)) :
    stop = ')' ∧ on' = on ∧ r₁ = r := by
  unfold modeSwitchAfter at h
  split at h
  · cases h
    exact ⟨‹_›, rfl, rfl⟩
  split at h
  · cases h
  split at h
  · cases h
  split at h
  · cases h
  obtain ⟨r', -, h⟩ := bind_eq_ok_iff.mp h
  split at h
  · cases h
  obtain ⟨off, -, h⟩ := bind_eq_ok_iff.mp h
  dsimp only at h
  split at h
  · cases h
  split at h <;> cases h

theorem rest_of_modeSwitch {on : List Char} (whole : Whole r.rest)
    (h : modeSwitch c r = .ok (.whole on, r₁)) : c :: r.rest = on ++ ')' :: r₁.rest := by
  rw [modeSwitch_eq] at h
  split at h
  · exact absurd (eq_of_modeSwitchAfter h).1 (by decide)
  · obtain ⟨⟨on', stop, r'⟩, read, h⟩ := bind_eq_ok_iff.mp h
    obtain ⟨rfl, rfl, rfl⟩ := eq_of_modeSwitchAfter h
    obtain ⟨more, rfl, rest⟩ := rest_of_modesOn whole read
    rw [rest]
    rfl

theorem namedOpening_ne_modes {on : List Char} : namedOpening r ≠ .ok (.modes on, r₁) := by
  intro h
  obtain ⟨⟨named, r'⟩, -, h⟩ := bind_eq_ok_iff.mp h
  dsimp only at h
  split at h
  · obtain ⟨_, -, h⟩ := bind_eq_ok_iff.mp h
    obtain ⟨_, -, h⟩ := bind_eq_ok_iff.mp h
    cases h
  obtain ⟨⟨refers, r''⟩, -, h⟩ := bind_eq_ok_iff.mp h
  dsimp only at h
  split at h
  · obtain ⟨_, -, h⟩ := bind_eq_ok_iff.mp h
    obtain ⟨_, -, h⟩ := bind_eq_ok_iff.mp h
    cases h
  split at h
  · cases h
  · obtain ⟨_, -, h⟩ := bind_eq_ok_iff.mp h
    cases h

theorem rest_of_openingAfter {start : Nat} {on : List Char} (whole : Whole r.rest)
    (h : openingAfter start symbol r = .ok (.modes on, r₁)) :
    symbol.chars ++ r.rest = on ++ ')' :: r₁.rest := by
  unfold openingAfter at h
  split at h
  · exact absurd h namedOpening_ne_modes
  · cases h
  · obtain ⟨⟨closed, r'⟩, -, h⟩ := bind_eq_ok_iff.mp h
    cases closed <;> cases h
  · cases h
  · cases h
  · split at h
    · cases h
    obtain ⟨r', -, h⟩ := bind_eq_ok_iff.mp h
    split at h <;> cases h
  · obtain ⟨x, -, h⟩ := bind_eq_ok_iff.mp h
    cases h
  · cases h
  · simp only at h
    split at h
    · cases h
    rename_i letter isLetter
    have plain : symbol = .plain letter := by
      split at isLetter
      · cases isLetter
        assumption
      · exact eq_plain_of_modeLetter? isLetter
    obtain ⟨⟨modes, r'⟩, read, h⟩ := bind_eq_ok_iff.mp h
    cases modes with
    | «scoped» on off => cases h
    | whole on =>
      cases h
      rw [plain]
      exact rest_of_modeSwitch whole read

/-- Modes for the whole pattern are switched on by letters between brackets. -/
theorem Opens.modes_rest {on : List Char} (opens : Opens r (.modes on) r₂) (whole : Whole r.rest) :
    r.rest = '(' :: '?' :: on ++ ')' :: r₂.rest := by
  obtain ⟨r₁, next, advance, opened⟩ := opens
  obtain ⟨rest, whole₁⟩ := rest_of_advance whole next advance
  rw [opening_eq] at opened
  obtain ⟨⟨special, r'⟩, mark, opened⟩ := bind_eq_ok_iff.mp opened
  cases special with
  | false => cases opened
  | true =>
    obtain ⟨next', advance'⟩ := accept_true mark
    obtain ⟨rest', whole'⟩ := rest_of_advance whole₁ next' advance'
    simp only [Bool.not_true, Bool.false_eq_true, ↓reduceIte] at opened
    split at opened
    · cases opened
    rename_i symbol next''
    obtain ⟨r'', advance'', opened⟩ := bind_eq_ok_iff.mp opened
    obtain ⟨rest'', whole''⟩ := rest_of_advance whole' next'' advance''
    rw [rest, rest', rest'', rest_of_openingAfter whole'' opened]
    rfl

theorem switch_ascii (m : Modes) (c : Char) :
    (m.switch true c).ascii = true ↔ m.ascii = true ∨ c = 'a' := by
  unfold Modes.switch
  split <;> simp_all

theorem switch_unicode (m : Modes) (c : Char) :
    (m.switch true c).unicode = true ↔ m.unicode = true ∨ c = 'u' := by
  unfold Modes.switch
  split <;> simp_all

section
variable {mode : Modes → Bool} {letter : Char}
  (switches : ∀ m c, mode (m.switch true c) = true ↔ mode m = true ∨ c = letter)
include switches

theorem switch_all (on : List Char) (m : Modes) :
    mode (on.foldl (fun m c => m.switch true c) m) = true ↔ mode m = true ∨ letter ∈ on := by
  induction on generalizing m with
  | nil => simp
  | cons c on ih =>
    rw [List.foldl_cons, ih, switches, List.mem_cons, or_assoc, eq_comm (a := c)]

/-- A mode that holds at the end of a reading held before it or is switched on in the text. -/
theorem Reads.switched {part : Part} (h : Reads part top m g r P) (whole : Whole r.rest)
    (holds : mode P.modes = true) :
    mode m = true ∨ ∃ on, SwitchIn r.rest on ∧ letter ∈ on := by
  -- what is switched on further on is switched on in the text
  have later {m' : Modes} {r r' : Reader} (ends : r'.rest <:+ r.rest)
      (found : mode m' = true ∨ ∃ on, SwitchIn r'.rest on ∧ letter ∈ on) :
      mode m' = true ∨ ∃ on, SwitchIn r.rest on ∧ letter ∈ on :=
    found.imp_right fun ⟨on, stands, mem⟩ => ⟨on, stands.trans ends.isInfix, mem⟩
  induction h with
  | stop stops => exact .inl holds
  | item next _ advance read _ _ ih =>
    have whole₁ := whole_of_advance whole next advance
    have onward := (Onward.one next advance).trans (readEdit_onward whole₁ read)
    exact later (onward.ends whole) (ih (onward.whole whole) holds)
  | comment opens _ ih | reference opens _ _ ih =>
    have onward := opens.onward whole
    exact later (onward.ends whole) (ih (onward.whole whole) holds)
  | @modes _ _ _ r₂ _ on opens _ ih =>
    have onward := opens.onward whole
    have here := opens.modes_rest whole
    rcases later (onward.ends whole) (ih (onward.whole whole) holds) with before | later
    · refine ((switch_all switches on _).mp before).imp_right fun mem => ⟨on, ?_, mem⟩
      exact ⟨[], r₂.rest, by rw [here]; simp⟩
    · exact .inr later
  | branchOne opens _ first next advance _ _ ih =>
    have whole₂ := (opens.onward whole).whole whole
    have grown := first.grown whole₂
    have whole₃ := (grown.past whole₂ next advance).2.1
    exact later (opens.suffix_past whole grown next advance) (ih whole₃ holds)
  | branchTwo opens _ first bar past second next advance _ _ _ ih =>
    have whole₂ := (opens.onward whole).whole whole
    have grown := first.grown whole₂
    have whole₃ := (grown.past whole₂ bar past).2.1
    have grown' := second.grown whole₃
    have whole₄ := (grown'.past whole₃ next advance).2.1
    have ends := (grown'.suffix_past whole₃ next advance).trans
      (opens.suffix_past whole grown bar past)
    exact later ends (ih whole₄ holds)
  | enclosed opens _ inner next advance _ _ ih =>
    have whole₂ := (opens.onward whole).whole whole
    have grown := inner.grown whole₂
    have whole₃ := (grown.past whole₂ next advance).2.1
    exact later (opens.suffix_past whole grown next advance) (ih whole₃ holds)
  | single _ _ ih => exact ih whole holds
  | more one bar past _ ih ih' =>
    have grown := one.grown whole
    have whole₁ := (grown.past whole bar past).2.1
    rcases later (grown.suffix_past whole bar past) (ih' whole₁ holds) with before | found
    · exact ih whole before
    · exact .inr found

end

/-! ## Whole patterns -/

/-- A text is refused as a pattern with a fault, or for what stands in it. -/
theorem excused_parse (s : List Char) : FailsOnly (Excused s) (parse s) := by
  unfold parse
  refine FailsOnly.bind (faulty_settle 0 s).excused fun r start => ?_
  obtain ⟨rfl, whole⟩ := settle_eq_ok start
  refine FailsOnly.bind ((excused_below _ _ (Nat.lt_succ_self _)).2 whole (by dsimp only; omega))
    fun P read => ?_
  have reads := reads_of_alternatives whole (by dsimp only; omega) read
  refine .ite (fun both => .error (.inr ?_)) fun _ => ?_
  · obtain ⟨ascii, unicode⟩ := Bool.and_eq_true_iff.mp both
    -- neither mode is on at first
    obtain ⟨on, first, a⟩ := (reads.switched switch_ascii whole ascii).resolve_left (by decide)
    obtain ⟨on', second, u⟩ :=
      (reads.switched switch_unicode whole unicode).resolve_left (by decide)
    exact .alphabets first a second u
  refine .ite (fun _ => (P.reader.faulty_fail _ _).excused) fun _ => ?_
  split
  · exact .error (.inl trivial)
  · split
    · exact .error (.inl trivial)
    · exact .ok _

end Neogrammar.Pattern
