import Mathlib.Data.List.TakeWhile
import Neogrammar.Proofs.Outcome
import Neogrammar.Proofs.Text.Kinds
import Neogrammar.Proofs.Text.Written

/-!
# Numerals

What is read as a whole number: blanks, a sign, decimal digits of any script with single low lines
between them, and blanks again, with no more digits than the limit. The decimal text of a number
that is not too long is one of its numerals.
-/
namespace Neogrammar.Text

variable {s body before after : List Char} {c : Char} {d n : Nat} {ds : List Nat}
  {kind : Nat → Bool} {m : Int}

/-! ## Digits -/

/-- Decimal digits with single low lines between them, and their values. -/
inductive Digits : List Char → List Nat → Prop
  | last {c : Char} {d : Nat} (value : decimalValue? c.toNat = some d) : Digits [c] [d]
  | next {c : Char} {d : Nat} {s : List Char} {ds : List Nat}
      (value : decimalValue? c.toNat = some d) (rest : Digits s ds) : Digits (c :: s) (d :: ds)
  | line {c : Char} {d : Nat} {s : List Char} {ds : List Nat}
      (value : decimalValue? c.toNat = some d) (rest : Digits s ds) :
      Digits (c :: '_' :: s) (d :: ds)

theorem Digits.first (h : Digits s ds) :
    ∃ c rest d, s = c :: rest ∧ decimalValue? c.toNat = some d := by
  cases h with
  | last value | next value _ | line value _ => exact ⟨_, _, _, rfl, value⟩

theorem Digits.getLast? (h : Digits s ds) :
    ∀ c ∈ s.getLast?, ∃ d, decimalValue? c.toNat = some d := by
  induction h with
  | last value =>
    rintro c ⟨⟩
    exact ⟨_, value⟩
  | next _ rest ih =>
    obtain ⟨e, s, -, rfl, -⟩ := rest.first
    simpa using ih
  | line _ rest ih =>
    obtain ⟨e, s, -, rfl, -⟩ := rest.first
    simpa using ih

theorem Digits.lt (h : Digits s ds) : ∀ d ∈ ds, d < 10 := by
  induction h with
  | last value => simpa using lt_of_decimalValue? value
  | next value _ ih | line value _ ih => simpa using ⟨lt_of_decimalValue? value, ih⟩

/-- The values of the decimal digits among some characters. -/
def values (s : List Char) : List Nat := s.filterMap fun c => decimalValue? c.toNat

theorem values_cons (value : decimalValue? c.toNat = some d) : values (c :: s) = d :: values s :=
  List.filterMap_cons_some value

theorem values_line (s : List Char) : values ('_' :: s) = values s := rfl

theorem Digits.values_eq (h : Digits s ds) : values s = ds := by
  induction h with
  | last value => exact values_cons value
  | next value _ ih => rw [values_cons value, ih]
  | line value _ ih => rw [values_cons value, values_line, ih]

theorem Digits.length_eq (h : Digits s ds) (plain : '_' ∉ s) : ds.length = s.length := by
  induction h with
  | last _ => rfl
  | next _ _ ih => simpa using ih fun low => plain (List.mem_cons_of_mem _ low)
  | line _ _ _ => exact absurd (by simp) plain

theorem digits_of_isDecimal (filled : s ≠ []) (decimal : ∀ c ∈ s, isDecimal c.toNat = true) :
    Digits s (values s) := by
  induction s with
  | nil => exact absurd rfl filled
  | cons c s ih =>
    obtain ⟨hc, hs⟩ := List.forall_mem_cons.mp decimal
    obtain ⟨d, value⟩ := Option.isSome_iff_exists.mp hc
    rw [values_cons value]
    cases s with
    | nil => exact .last value
    | cons e s => exact .next value (ih (List.cons_ne_nil e s) hs)

/-- Every character of some digits is a digit or a low line. -/
theorem Digits.mem (h : Digits s ds) : ∀ c ∈ s, c = '_' ∨ isDecimal c.toNat = true := by
  have decimal {c : Char} {d : Nat} (value : decimalValue? c.toNat = some d) :
      isDecimal c.toNat = true := by
    rw [isDecimal, value]
    rfl
  induction h with
  | last value => simpa using .inr (decimal value)
  | next value _ ih => simpa using ⟨.inr (decimal value), ih⟩
  | line value _ ih => simpa using ⟨.inr (decimal value), ih⟩

/-- Where a digit must follow, digits are read; where none must, the text may also end, or go on
after a low line. -/
theorem readDigits_eq_some_iff :
    (readDigits true s = some ds ↔ Digits s ds) ∧ (readDigits false s = some ds ↔
      s = [] ∧ ds = [] ∨ Digits s ds ∨ ∃ t, s = '_' :: t ∧ Digits t ds) := by
  have line : decimalValue? '_'.toNat = none := rfl
  induction s generalizing ds with
  | nil =>
    constructor
    · exact ⟨nofun, nofun⟩
    · have never : ¬Digits [] ds := nofun
      simp [readDigits, never, eq_comm]
  | cons c s ih =>
    cases value : decimalValue? c.toNat with
    | some d =>
      have more : (readDigits false s).map (d :: ·) = some ds ↔ Digits (c :: s) ds := by
        rw [Option.map_eq_some_iff]
        constructor
        · rintro ⟨rest, read, rfl⟩
          rcases ih.2.mp read with ⟨rfl, rfl⟩ | h | ⟨t, rfl, h⟩
          · exact .last value
          · exact .next value h
          · exact .line value h
        · rintro (value' | ⟨value', h⟩ | ⟨value', h⟩) <;> cases value.symm.trans value'
          · exact ⟨[], ih.2.mpr (.inl ⟨rfl, rfl⟩), rfl⟩
          · exact ⟨_, ih.2.mpr (.inr (.inl h)), rfl⟩
          · exact ⟨_, ih.2.mpr (.inr (.inr ⟨_, rfl, h⟩)), rfl⟩
      simp only [readDigits, value]
      refine ⟨more, more.trans ⟨fun h => .inr (.inl h), ?_⟩⟩
      rintro (⟨none, -⟩ | h | ⟨t, h, -⟩)
      · cases none
      · exact h
      · obtain ⟨rfl, -⟩ := List.cons.inj h
        cases line.symm.trans value
    | none =>
      have never : ¬Digits (c :: s) ds := by
        intro h
        obtain ⟨_, _, _, same, value'⟩ := h.first
        cases same
        cases value.symm.trans value'
      simp only [readDigits, value]
      by_cases low : c = '_'
      · subst low
        simpa [never] using ih.1
      · simpa [never] using fun h => absurd h low

theorem readNatural_eq_ok_iff :
    readNatural s = .ok n ↔ ∃ ds, Digits s ds ∧ ds.length ≤ digitLimit ∧ n = ofDigits 10 ds := by
  unfold readNatural
  cases h : readDigits true s with
  | none =>
    refine ⟨fun never => (by cases never), ?_⟩
    rintro ⟨ds, digits, -⟩
    cases h.symm.trans (readDigits_eq_some_iff.1.mpr digits)
  | some ds =>
    have digits := readDigits_eq_some_iff.1.mp h
    dsimp only
    split
    · rename_i long
      refine ⟨fun never => (by cases never), ?_⟩
      rintro ⟨es, digits', short, -⟩
      cases h.symm.trans (readDigits_eq_some_iff.1.mpr digits')
      exact absurd short (Nat.not_le.mpr long)
    · rename_i short
      constructor
      · rintro ⟨⟩
        exact ⟨ds, digits, Nat.not_lt.mp short, rfl⟩
      · rintro ⟨es, digits', -, rfl⟩
        cases h.symm.trans (readDigits_eq_some_iff.1.mpr digits')
        rfl

/-! ## Blanks at both ends -/

theorem trim_append (outer : ∀ c ∈ before ++ after, kind c.toNat = true)
    (first : ∀ c ∈ s.head?, kind c.toNat = false) (last : ∀ c ∈ s.getLast?, kind c.toNat = false) :
    trim kind (before ++ s ++ after) = s := by
  have keeps {t : List Char} (head : ∀ c ∈ t.head?, kind c.toNat = false) :
      (t.dropWhile fun c => kind c.toNat) = t := by
    cases t with
    | nil => rfl
    | cons c t => exact List.dropWhile_cons_of_neg (by simp [head c rfl])
  obtain ⟨hb, ha⟩ := List.forall_mem_append.mp outer
  simp only [trim]
  rw [List.append_assoc, List.dropWhile_append_of_pos hb]
  cases s with
  | nil =>
    have none : (after.dropWhile fun c => kind c.toNat) = [] := List.dropWhile_eq_nil_iff.mpr ha
    simp [none]
  | cons c s =>
    have core : ∀ d ∈ (c :: s ++ after).head?, kind d.toNat = false := by simpa using first
    rw [keeps core, List.reverse_append, List.dropWhile_append_of_pos
      (fun d hd => ha d (List.mem_reverse.mp hd)),
      keeps (by simpa only [List.head?_reverse] using last), List.reverse_reverse]

/-- What is dropped at both ends is of that kind. -/
theorem exists_trim (kind : Nat → Bool) (s : List Char) :
    ∃ before after, s = before ++ trim kind s ++ after ∧
      ∀ c ∈ before ++ after, kind c.toNat = true := by
  let p : Char → Bool := fun c => kind c.toNat
  have tail : s.dropWhile p = trim kind s ++ ((s.dropWhile p).reverse.takeWhile p).reverse := by
    rw [trim, ← List.reverse_append, List.takeWhile_append_dropWhile, List.reverse_reverse]
  refine ⟨s.takeWhile p, ((s.dropWhile p).reverse.takeWhile p).reverse, ?_, ?_⟩
  · rw [List.append_assoc, ← tail, List.takeWhile_append_dropWhile]
  · intro c hc
    rcases List.mem_append.mp hc with hc | hc
    · exact List.mem_takeWhile_imp (p := p) hc
    · exact List.mem_takeWhile_imp (p := p) (List.mem_reverse.mp hc)

/-! ## Whole numbers -/

/-- A sign, if there is one, and what it does to the number after it. -/
inductive Sign : List Char → Int → Prop
  | none : Sign [] 1
  | plus : Sign ['+'] 1
  | minus : Sign ['-'] (-1)

/-- The numerals of a whole number. -/
inductive Numeral : List Char → Int → Prop
  | intro {before sign body after : List Char} {factor : Int} {ds : List Nat}
      (blank : ∀ c ∈ before ++ after, isNumeralBlank c.toNat = true) (signed : Sign sign factor)
      (digits : Digits body ds) (short : ds.length ≤ digitLimit) :
      Numeral (before ++ (sign ++ body) ++ after) (factor * ofDigits 10 ds)

theorem Digits.numeral (digits : Digits s ds) (short : ds.length ≤ digitLimit) :
    Numeral s (ofDigits 10 ds) := by
  simpa using @Numeral.intro [] [] s [] 1 ds (by simp) .none digits short

theorem Digits.numeral_minus (digits : Digits s ds) (short : ds.length ≤ digitLimit) :
    Numeral ('-' :: s) (-(ofDigits 10 ds : Int)) := by
  simpa using @Numeral.intro [] ['-'] s [] (-1) ds (by simp) .minus digits short

theorem isNumeralBlank_of_isBlank {c : Nat} (h : isBlank c = false) : isNumeralBlank c = false := by
  rw [isNumeralBlank, h, Bool.false_and]

/-- Nothing is dropped of a sign with digits. -/
theorem trim_signed {sign : List Char} {factor : Int} (signed : Sign sign factor)
    (digits : Digits body ds) (blank : ∀ c ∈ before ++ after, isNumeralBlank c.toNat = true) :
    trim isNumeralBlank (before ++ (sign ++ body) ++ after) = sign ++ body := by
  have solid {c : Char} (h : ∃ d, decimalValue? c.toNat = some d) :
      isNumeralBlank c.toNat = false :=
    isNumeralBlank_of_isBlank (isBlank_of_decimalValue? h.choose_spec)
  obtain ⟨c, rest, d, rfl, value⟩ := digits.first
  refine trim_append blank ?_ ?_
  · cases signed with
    | none => simpa using solid ⟨d, value⟩
    | plus | minus =>
      rintro _ ⟨⟩
      rfl
  · intro e he
    exact solid (digits.getLast? e (by simpa [List.getLast?_append] using he))

/-- What is read as a whole number are its numerals. -/
theorem readInt_eq_ok_iff {s : String} : readInt s = .ok m ↔ Numeral s.toList m := by
  constructor
  · intro h
    obtain ⟨before, after, parts, blank⟩ := exists_trim isNumeralBlank s.toList
    rw [parts]
    unfold readInt at h
    generalize trim isNumeralBlank s.toList = core at h
    split at h <;> obtain ⟨_, hn, rfl⟩ := map_eq_ok_iff.mp h <;>
      obtain ⟨n, natural, ⟨⟩⟩ := bind_eq_ok_iff.mp hn <;>
      obtain ⟨ds, digits, short, rfl⟩ := readNatural_eq_ok_iff.mp natural
    · simpa using Numeral.intro blank .minus digits short
    · simpa using Numeral.intro blank .plus digits short
    · simpa using Numeral.intro blank .none digits short
  · rintro h
    generalize parts : s.toList = t at h
    obtain ⟨blank, signed, digits, short⟩ := h
    have natural := readNatural_eq_ok_iff.mpr ⟨_, digits, short, rfl⟩
    rw [readInt, parts, trim_signed signed digits blank]
    cases signed with
    | minus => simp [natural, Except.map]
    | plus => simp [natural, Except.map]
    | none =>
      obtain ⟨c, rest, d, rfl, value⟩ := digits.first
      split
      · rename_i same
        cases same
        cases value
      · rename_i same
        cases same
        cases value
      · simp_all [Except.map]

theorem readInt_ofList : readInt (String.ofList s) = .ok m ↔ Numeral s m := by
  rw [readInt_eq_ok_iff, String.toList_ofList]

/-- A character of a numeral is a blank, a sign, a low line or a decimal digit. -/
theorem Numeral.mem (h : Numeral s m) : ∀ c ∈ s,
    isNumeralBlank c.toNat = true ∨ c ∈ ['+', '-', '_'] ∨ isDecimal c.toNat = true := by
  obtain ⟨blank, signed, digits, -⟩ := h
  intro c hc
  rw [List.mem_append, List.mem_append, List.mem_append] at hc
  rcases hc with (hc | hc | hc) | hc
  · exact .inl (blank c (List.mem_append_left _ hc))
  · cases signed with
    | none => cases hc
    | plus | minus => simp_all
  · rcases digits.mem c hc with rfl | decimal
    · simp
    · exact .inr (.inr decimal)
  · exact .inl (blank c (List.mem_append_right _ hc))

/-- A numeral without blanks and signs consists of digits. -/
theorem Numeral.digits (h : Numeral s m)
    (bare : ∀ c ∈ s, isNumeralBlank c.toNat = false ∧ c ≠ '+' ∧ c ≠ '-') :
    ∃ ds, Digits s ds ∧ ds.length ≤ digitLimit ∧ m = ofDigits 10 ds := by
  obtain ⟨blank, signed, digits, short⟩ := h
  simp only [List.forall_mem_append] at bare blank
  have none {t : List Char} (ht : ∀ c ∈ t, isNumeralBlank c.toNat = true)
      (hb : ∀ c ∈ t, isNumeralBlank c.toNat = false ∧ c ≠ '+' ∧ c ≠ '-') : t = [] :=
    List.eq_nil_iff_forall_not_mem.mpr fun c hc => by
      simpa [ht c hc] using (hb c hc).1
  obtain rfl := none blank.1 bare.1.1
  obtain rfl := none blank.2 bare.2
  cases signed with
  | none => exact ⟨_, by simpa using digits, short, by simp⟩
  | plus => simp at bare
  | minus => simp at bare

/-- The number that the decimal digits of a text write. -/
def numberOf (s : String) : Nat := ofDigits 10 (values s.toList)

/-- A text of digits is read exactly if all of them are decimal and there are not too many. -/
theorem readInt_of_isDigit {s : String} (filled : s.toList ≠ [])
    (digit : ∀ c ∈ s.toList, isDigit c.toNat = true) :
    readInt s = .ok m ↔ (∀ c ∈ s.toList, isDecimal c.toNat = true) ∧ s.length ≤ digitLimit ∧
      m = numberOf s := by
  have apart {e : Char} (other : isDigit e.toNat = false) : ∀ c ∈ s.toList, c ≠ e := by
    rintro c hc rfl
    rw [digit c hc] at other
    cases other
  have low : '_' ∉ s.toList := fun h => apart (by decide) '_' h rfl
  rw [readInt_eq_ok_iff, numberOf, ← s.length_toList]
  constructor
  · intro h
    obtain ⟨ds, digits, short, rfl⟩ := h.digits fun c hc =>
      ⟨isNumeralBlank_of_isBlank (isBlank_of_isDigit (digit c hc)), apart (by decide) c hc,
        apart (by decide) c hc⟩
    rw [digits.values_eq, ← digits.length_eq low]
    exact ⟨fun c hc => (digits.mem c hc).resolve_left (apart (by decide) c hc), short, rfl⟩
  · rintro ⟨decimal, short, rfl⟩
    have digits := digits_of_isDecimal filled decimal
    exact digits.numeral (by rwa [digits.length_eq low])

/-! ## Numbers that can be written -/

theorem isWritable_iff : isWritable m = true ↔ m.natAbs < 10 ^ digitLimit := by
  rw [isWritable, decide_eq_true_eq]
  exact Nat.length_toDigits_le_iff (by decide) (by decide)

/-- What is read can be written again. -/
theorem Numeral.isWritable (h : Numeral s m) : isWritable m = true := by
  obtain ⟨-, signed, digits, short⟩ := h
  rename_i ds
  have size : ∀ factor : Int, factor.natAbs = 1 →
      (factor * (ofDigits 10 ds : Nat)).natAbs = ofDigits 10 ds := by
    intro factor one
    rw [Int.natAbs_mul, one, Nat.one_mul, Int.natAbs_natCast]
  rw [isWritable_iff, size _ (by cases signed <;> rfl)]
  exact Nat.lt_of_lt_of_le (ofDigits_lt digits.lt) (Nat.pow_le_pow_right (by decide) short)

theorem decimalValue?_isDigit (h : c.isDigit = true) :
    decimalValue? c.toNat = some (c.toNat - '0'.toNat) := by
  have ascii : 48 ≤ c.toNat ∧ c.toNat ≤ 57 := by
    simp only [Char.isDigit, Bool.and_eq_true, decide_eq_true_eq] at h
    exact h
  rw [decimalValue?, if_pos (by omega), if_pos (by simp [isAsciiDigit]; omega)]
  rfl

/-- The digits of ASCII are decimal, and their values are found by counting. -/
theorem digits_of_isDigit (filled : s ≠ []) (digits : ∀ c ∈ s, c.isDigit = true) :
    Digits s (s.map fun c => c.toNat - '0'.toNat) := by
  have counted : values s = s.map fun c => c.toNat - '0'.toNat := by
    rw [values, ← List.filterMap_eq_map]
    exact List.filterMap_congr fun c hc => decimalValue?_isDigit (digits c hc)
  rw [← counted]
  refine digits_of_isDecimal filled fun c hc => ?_
  rw [isDecimal, decimalValue?_isDigit (digits c hc)]
  rfl

/-- The text of a whole number that is not too long is a numeral of it. -/
theorem numeral_intText (short : isWritable m = true) : Numeral (intText m).toList m := by
  have digits : Digits (Nat.toDigits 10 m.natAbs) _ := digits_of_isDigit Nat.toDigits_ne_nil
    fun c hc => Nat.isDigit_of_mem_toDigits (by decide) (by decide) hc
  have length := of_decide_eq_true short
  obtain ⟨sign, text⟩ | ⟨sign, text⟩ := toList_intText m <;> rw [text]
  · have numeral := digits.numeral (by simpa using length)
    rwa [ofDigits_toDigits, Int.natAbs_of_nonneg sign] at numeral
  · have numeral := digits.numeral_minus (by simpa using length)
    have value : -(m.natAbs : Int) = m := by omega
    rwa [ofDigits_toDigits, value] at numeral

end Neogrammar.Text
