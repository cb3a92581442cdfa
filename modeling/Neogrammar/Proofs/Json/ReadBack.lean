import Mathlib.Tactic.SplitIfs
import Neogrammar.Json.Reader
import Neogrammar.Json.Writer
import Neogrammar.Proofs.Datum.Plain
import Neogrammar.Proofs.Outcome
import Neogrammar.Proofs.Text.Written

/-!
# Written JSON is read back

What is written of plain data is read as these data, in either layout and whatever follows. Only
whole numbers need something after them that does not go on with them.
-/
namespace Neogrammar.Json

variable {rest : List Char}

/-! ## Texts -/

theorem hexValue?_hexDigit : ∀ n < 16, hexValue? (Text.hexDigit n) = some n := by decide

/-- Four digits are read as the number that they were written for. -/
theorem readUnit_hexDigits {n : Nat} (h : n < 0x10000) (rest : List Char) :
    readUnit (Text.hexDigits 4 n ++ rest) = some (n, rest) := by
  simp only [Text.hexDigits, List.nil_append, List.cons_append, readUnit,
    hexValue?_hexDigit _ (Nat.mod_lt _ (by decide : 0 < 16)), Option.bind_eq_bind, Option.bind_some]
  simp only [Option.pure_def, Option.some.injEq, Prod.mk.injEq, and_true]
  omega

theorem readEscapedUnit_control {c : Char} (h : c.toNat < 0x20) (rest : List Char) :
    readEscapedUnit (Text.hexDigits 4 c.toNat ++ rest) = some (c, rest) := by
  have high : isHighUnit c.toNat = false := by simp [isHighUnit]; omega
  have low : isLowUnit c.toNat = false := by simp [isLowUnit]; omega
  rw [readEscapedUnit, readUnit_hexDigits (by omega)]
  simp [high, low]

theorem readChars_simple {e c : Char} (he : e ≠ 'u') (hc : simpleEscape? e = some c) (fuel : Nat) :
    readChars (fuel + 1) ('\\' :: e :: rest) = (readChars fuel rest).map fun r => (c :: r.1, r.2) := by
  rw [readChars, hc]
  · cases readChars fuel rest <;> rfl
  · simpa using he

theorem readChars_control {c : Char} (h : c.toNat < 0x20) (fuel : Nat) :
    readChars (fuel + 1) ('\\' :: 'u' :: Text.hexDigits 4 c.toNat ++ rest) =
      (readChars fuel rest).map fun r => (c :: r.1, r.2) := by
  rw [List.cons_append, List.cons_append, readChars, readEscapedUnit_control h]
  cases hr : readChars fuel rest <;> simp [hr]

theorem readChars_bare {c : Char} (hq : c ≠ '"') (hb : c ≠ '\\') (hc : ¬ c.toNat < 0x20)
    (fuel : Nat) :
    readChars (fuel + 1) (c :: rest) = (readChars fuel rest).map fun r => (c :: r.1, r.2) := by
  rw [readChars, if_neg (by simp [hb, hc])]
  · cases readChars fuel rest <;> rfl
  · simpa using hq
  · simp [hb]
  · simp [hb]

/-- An escaped character is read as itself. -/
theorem readChars_escapeChar (c : Char) (fuel : Nat) :
    readChars (fuel + 1) (escapeChar c ++ rest) =
      (readChars fuel rest).map fun r => (c :: r.1, r.2) := by
  have simple {e : Char} (he : e ≠ 'u') (hc : simpleEscape? e = some c) :
      readChars (fuel + 1) (['\\', e] ++ rest) =
        (readChars fuel rest).map fun r => (c :: r.1, r.2) :=
    readChars_simple he hc fuel
  unfold escapeChar
  split_ifs with h h h h h h h h
  all_goals try exact simple (by decide) (by rw [h]; rfl)
  · exact readChars_control h fuel
  · exact readChars_bare ‹_› ‹_› h fuel

theorem escapeChar_ne_nil (c : Char) : escapeChar c ≠ [] := by
  unfold escapeChar
  repeat' split
  all_goals simp

/-- The characters of a text are read up to the quote after them. -/
theorem readChars_escaped {s : List Char} {fuel : Nat} (h : s.length < fuel) :
    readChars fuel (s.flatMap escapeChar ++ '"' :: rest) = some (s, rest) := by
  induction s generalizing fuel with
  | nil =>
    obtain ⟨fuel, rfl⟩ := Nat.exists_eq_add_of_lt h
    rfl
  | cons c s ih =>
    cases fuel with
    | zero => simp at h
    | succ fuel =>
      rw [List.flatMap_cons, List.append_assoc, readChars_escapeChar, ih (by simpa using h)]
      rfl

theorem readChars_escapedText (s : List Char) (rest : List Char) :
    readChars ((s.flatMap escapeChar ++ '"' :: rest).length + 1)
      (s.flatMap escapeChar ++ '"' :: rest) = some (s, rest) := by
  refine readChars_escaped ?_
  have bound : s.length ≤ (s.flatMap escapeChar).length := by
    induction s with
    | nil => simp
    | cons c s ih =>
      have one := List.length_pos_iff.mpr (escapeChar_ne_nil c)
      simp only [List.flatMap_cons, List.length_append, List.length_cons]
      omega
  simp only [List.length_append]
  omega

/-! ## Whole numbers -/

/-- What may follow a whole number without becoming part of it. -/
def Ends (rest : List Char) : Prop :=
  ∀ c ∈ rest.head?, c.isDigit = false ∧ c ≠ '.' ∧ c ≠ 'e' ∧ c ≠ 'E'

theorem digitsValue_toDigits (n : Nat) : digitsValue (Nat.toDigits 10 n) = n :=
  Text.ofDigits_toDigits n

/-- A numeral has no zero before other digits. -/
theorem toDigits_zero_cons {n : Nat} {ds : List Char} (h : Nat.toDigits 10 n = '0' :: ds) :
    ds = [] := by
  induction n using Nat.strongRecOn generalizing ds with
  | ind n ih =>
    by_cases small : n < 10
    · rw [Nat.toDigits_of_lt_base small] at h
      exact (List.cons.inj h).2.symm
    · rw [Nat.toDigits_eq_if (by decide), if_neg small] at h
      cases higher : Nat.toDigits 10 (n / 10) with
      | nil => exact absurd higher Nat.toDigits_ne_nil
      | cons d more =>
        rw [higher] at h
        obtain rfl : d = '0' := (List.cons.inj h).1
        have value := digitsValue_toDigits (n / 10)
        rw [higher, ih (n / 10) (by omega) higher] at value
        have zero : digitsValue ['0'] = 0 := rfl
        omega

theorem takeWhile_digits {ds : List Char} (hd : ∀ d ∈ ds, d.isDigit = true) (hr : Ends rest) :
    (ds ++ rest).takeWhile Char.isDigit = ds := by
  rw [List.takeWhile_append_of_pos hd]
  cases rest with
  | nil => simp
  | cons c rest =>
    rw [List.takeWhile_cons_of_neg (by simp [(hr c rfl).1]), List.append_nil]

theorem readFraction_ends (hr : Ends rest) : readFraction rest = ([], rest) := by
  unfold readFraction
  split
  · exact absurd rfl (hr '.' rfl).2.1
  · rfl

theorem readExponent_ends (hr : Ends rest) : readExponent rest = (none, rest) := by
  cases rest with
  | nil => rfl
  | cons c rest =>
    obtain ⟨-, -, small, capital⟩ := hr c rfl
    simp [readExponent, small, capital]

/-- The digits before a point or exponent, of a body without sign. -/
def wholeDigits (body : List Char) : List Char :=
  match body with
  | '0' :: _ => ['0']
  | _ => body.takeWhile Char.isDigit

theorem wholeDigits_toDigits (n : Nat) (hr : Ends rest) :
    wholeDigits (Nat.toDigits 10 n ++ rest) = Nat.toDigits 10 n := by
  have digits : ∀ d ∈ Nat.toDigits 10 n, d.isDigit = true := fun d hd =>
    Nat.isDigit_of_mem_toDigits (by decide) (by decide) hd
  unfold wholeDigits
  split
  · rename_i tail h
    cases hn : Nat.toDigits 10 n with
    | nil => exact absurd hn Nat.toDigits_ne_nil
    | cons d more =>
      rw [hn, List.cons_append] at h
      obtain ⟨rfl, -⟩ := List.cons.inj h
      rw [toDigits_zero_cons hn]
  · exact takeWhile_digits digits hr

/-- What is read of a numeral after its sign. -/
def readUnsigned (negative : Bool) (body : List Char) : Option Numeral :=
  if (wholeDigits body).isEmpty then none
  else
    let (fraction, rest) := readFraction (body.drop (wholeDigits body).length)
    let (exponent, rest) := readExponent rest
    some ⟨negative, wholeDigits body, fraction, exponent, rest⟩

theorem readUnsigned_toDigits (negative : Bool) (n : Nat) (hr : Ends rest) :
    readUnsigned negative (Nat.toDigits 10 n ++ rest) =
      some ⟨negative, Nat.toDigits 10 n, [], none, rest⟩ := by
  have nonempty : (Nat.toDigits 10 n).isEmpty = false := by simp [Nat.toDigits_ne_nil]
  simp only [readUnsigned, wholeDigits_toDigits n hr, nonempty, List.drop_left,
    readFraction_ends hr, readExponent_ends hr]
  rfl

theorem readNumeral_negative (body : List Char) :
    readNumeral ('-' :: body) = readUnsigned true body := rfl

theorem readNumeral_unsigned {d : Char} {body : List Char} (hd : d ≠ '-') :
    readNumeral (d :: body) = readUnsigned false (d :: body) := by
  unfold readNumeral
  split
  rename_i negative rest h
  split at h
  · rename_i he
    exact absurd (List.cons.inj he).1 hd
  · cases h
    rfl

theorem words_digit {d : Char} {body : List Char} (hd : d.isDigit = true) :
    words.find? (fun w => w.1.isPrefixOf (d :: body)) = none ∧
      words.find? (fun w => w.1.isPrefixOf ('-' :: d :: body)) = none := by
  have other (c : Char) (hc : c.isDigit = false) : (c == d) = false := by
    rw [beq_eq_false_iff_ne]
    rintro rfl
    simp [hc] at hd
  simp [words, List.find?, List.isPrefixOf, other 'n' rfl, other 't' rfl, other 'f' rfl,
    other 'N' rfl, other 'I' rfl, other '-' rfl]

/-- What starts with a digit, or with a minus and a digit, is read as a numeral. -/
theorem readValue_numeral {d : Char} {body s : List Char} {n : Numeral} {v : Datum}
    (hd : d.isDigit = true) (hs : s = d :: body ∨ s = '-' :: d :: body)
    (hn : readNumeral s = some n) (hv : n.value = .ok v) (fuel : Nat) :
    readValue (fuel + 1) s = .ok (v, n.rest) := by
  have other (c : Char) (hc : c.isDigit = false) : d ≠ c := by
    rintro rfl
    simp [hc] at hd
  have noWord : words.find? (fun w => w.1.isPrefixOf s) = none := by
    rcases hs with rfl | rfl
    · exact (words_digit hd).1
    · exact (words_digit hd).2
  have noBracket (c : Char) (hc : c.isDigit = false) (hm : c ≠ '-') (rest : List Char) :
      s ≠ c :: rest := by
    rcases hs with rfl | rfl
    · exact fun he => other c hc (List.cons.inj he).1
    · exact fun he => hm (List.cons.inj he).1.symm
  rw [readValue]
  · simp only [noWord, hn, hv]
    rfl
  · exact fun rest he => noBracket '"' rfl (by decide) rest he
  · exact fun rest he => noBracket '[' rfl (by decide) rest he
  · exact fun rest he => noBracket '\x7b' rfl (by decide) rest he

/-- A whole number is read as itself. -/
theorem readValue_int {n : Int} (short : (Nat.toDigits 10 n.natAbs).length ≤ Text.digitLimit)
    (hr : Ends rest) (fuel : Nat) :
    readValue (fuel + 1) ((Text.intText n).toList ++ rest) = .ok (.int n, rest) := by
  cases hds : Nat.toDigits 10 n.natAbs with
  | nil => exact absurd hds Nat.toDigits_ne_nil
  | cons d ds =>
    have hd : d.isDigit = true :=
      Nat.isDigit_of_mem_toDigits (by decide) (by decide) (hds ▸ List.mem_cons_self)
    have apart : d ≠ '-' := by
      rintro rfl
      cases hd
    have bound : ¬ Text.digitLimit < (Nat.toDigits 10 n.natAbs).length := by omega
    cases n with
    | ofNat n =>
      have numeral := readUnsigned_toDigits false n hr
      rw [Int.ofNat_eq_natCast, Int.natAbs_natCast] at hds bound
      have text : (Text.intText (Int.ofNat n)).toList ++ rest = d :: (ds ++ rest) := by
        simp [Text.intText, Text.natText, hds]
      rw [hds, List.cons_append, ← readNumeral_unsigned apart, ← text] at numeral
      refine readValue_numeral hd (.inl text) numeral ?_ fuel
      rw [← hds]
      simp [Numeral.value, bound, digitsValue_toDigits]
    | negSucc n =>
      have numeral := readUnsigned_toDigits true (n + 1) hr
      rw [Int.natAbs_negSucc, Nat.succ_eq_add_one] at hds bound
      have text : (Text.intText (Int.negSucc n)).toList ++ rest = '-' :: d :: (ds ++ rest) := by
        simp [Text.intText, Text.natText, hds]
      rw [← readNumeral_negative, hds, List.cons_append, ← text] at numeral
      refine readValue_numeral hd (.inr text) numeral ?_ fuel
      rw [← hds]
      simp [Numeral.value, bound, digitsValue_toDigits]
      omega

/-! ## Values -/

theorem skipSpace_spaces {s : List Char} (hs : ∀ c ∈ s, isSpace c = true) (rest : List Char) :
    skipSpace (s ++ rest) = skipSpace rest :=
  List.dropWhile_append_of_pos hs

theorem skipSpace_cons {c : Char} (hc : isSpace c = false) (rest : List Char) :
    skipSpace (c :: rest) = c :: rest :=
  List.dropWhile_cons_of_neg (by simp [hc])

namespace Layout

theorem isSpace_of_mem_indentation {width : Nat} {c : Char}
    (h : c ∈ '\n' :: List.replicate width ' ') : isSpace c = true := by
  rcases List.mem_cons.mp h with rfl | h
  · rfl
  · rw [List.eq_of_mem_replicate h]
    rfl

/-- What sets items apart is a comma with blanks after it. -/
theorem between_eq (l : Layout) (depth : Nat) :
    ∃ s, l.between depth = ',' :: s ∧ ∀ c ∈ s, isSpace c = true := by
  cases l with
  | line => exact ⟨[' '], rfl, fun c hc => by rw [List.mem_singleton.mp hc]; rfl⟩
  | indented width => exact ⟨_, rfl, fun c hc => isSpace_of_mem_indentation hc⟩

theorem before_spaces (l : Layout) (depth : Nat) : ∀ c ∈ l.before depth, isSpace c = true := by
  cases l with
  | line => simp [before]
  | indented width => exact fun c hc => isSpace_of_mem_indentation hc

theorem after_spaces (l : Layout) (depth : Nat) : ∀ c ∈ l.after depth, isSpace c = true := by
  cases l with
  | line => simp [after]
  | indented width => exact fun c hc => isSpace_of_mem_indentation hc

end Layout

namespace Written

@[simp] theorem of_andThen (s t : List Char) : (of s).andThen (of t) = of (s ++ t) := rfl

end Written

/-- A value that is written whole is set apart from those before it. -/
theorem setApart_of {l : Layout} {depth : Nat} {d : Datum} {s : List Char}
    (h : write l depth d = .of s) (gap : List Char) : setApart gap d (.of s) = .of (gap ++ s) := by
  have within : isPastLimit d = false := by
    cases d with
    | int n =>
      rw [write, intText] at h
      cases short : Text.isWritable n with
      | true => simp [isPastLimit, short]
      | false => simp [short, Written.cut, Written.of] at h
    | _ => rfl
  rw [setApart, within]
  rfl

/-- A text that is read as a value, whatever ends it, and starts with no blank or closing bracket. -/
structure Reads (s : List Char) (d : Datum) : Prop where
  starts : ∃ c t, s = c :: t ∧ isSpace c = false ∧ c ≠ ']'
  reads : ∀ fuel rest, s.length < fuel → Ends rest → readValue fuel (s ++ rest) = .ok (d, rest)

/-- A value that is written whole as a text that is read as that value. Nothing but spaces and line
feeds is blank in it. -/
def Keeps (l : Layout) (depth : Nat) (d : Datum) : Prop :=
  ∃ s, write l depth d = .of s ∧ Reads s d ∧ '\r' ∉ s

theorem Reads.skipSpace_append {s : List Char} {d : Datum} (h : Reads s d) (rest : List Char) :
    skipSpace (s ++ rest) = s ++ rest := by
  obtain ⟨c, t, rfl, hc, -⟩ := h.starts
  exact skipSpace_cons hc _

theorem ends_cons {c : Char} (h : c.isDigit = false ∧ c ≠ '.' ∧ c ≠ 'e' ∧ c ≠ 'E')
    (rest : List Char) : Ends (c :: rest) := by
  rintro d ⟨⟩
  exact h

theorem ends_spaces {s : List Char} (hs : ∀ c ∈ s, isSpace c = true) (hr : Ends rest) :
    Ends (s ++ rest) := by
  cases s with
  | nil => exact hr
  | cons c s =>
    have blank := hs c List.mem_cons_self
    refine ends_cons ?_ _
    simp only [isSpace, Bool.or_eq_true, beq_iff_eq] at blank
    rcases blank with ((rfl | rfl) | rfl) | rfl <;> decide

theorem keeps_null (l : Layout) (depth : Nat) : Keeps l depth .null := by
  refine ⟨"null".toList, by rw [write], ⟨⟨'n', "ull".toList, rfl, by decide, by decide⟩, ?_⟩,
    by decide⟩
  intro fuel rest hf _
  cases fuel with
  | zero => simp at hf
  | succ fuel => rfl

/-- The characters of a whole number are digits but for a sign before them. -/
theorem intText_eq (n : Int) :
    ∃ d ds, (∀ c ∈ d :: ds, c.isDigit = true) ∧
      ((Text.intText n).toList = d :: ds ∨ (Text.intText n).toList = '-' :: d :: ds) := by
  have digits (m : Nat) : ∃ d ds, (∀ c ∈ d :: ds, c.isDigit = true) ∧
      Nat.toDigits 10 m = d :: ds := by
    cases hm : Nat.toDigits 10 m with
    | nil => exact absurd hm Nat.toDigits_ne_nil
    | cons d ds =>
      exact ⟨d, ds, fun c hc => Nat.isDigit_of_mem_toDigits (by decide) (by decide) (hm ▸ hc), rfl⟩
  cases n with
  | ofNat m =>
    obtain ⟨d, ds, hd, hm⟩ := digits m
    exact ⟨d, ds, hd, .inl (by simp [Text.intText, Text.natText, hm])⟩
  | negSucc m =>
    obtain ⟨d, ds, hd, hm⟩ := digits (m + 1)
    exact ⟨d, ds, hd, .inr (by simp [Text.intText, Text.natText, hm])⟩

theorem keeps_int (l : Layout) (depth : Nat) {n : Int} (short : (Datum.int n).IsShort) :
    Keeps l depth (.int n) := by
  obtain ⟨d, ds, digits, text⟩ := intText_eq n
  have other (c : Char) (hc : c ∈ d :: ds) (e : Char) (he : e.isDigit = false) : c ≠ e := by
    rintro rfl
    simp [digits c hc] at he
  have written : intText n = .ok (Text.intText n) := if_pos (decide_eq_true (short n rfl))
  refine ⟨(Text.intText n).toList, by rw [write, written], ⟨?_, ?_⟩, ?_⟩
  · rcases text with text | text
    · have head := other d List.mem_cons_self
      refine ⟨d, ds, text, ?_, head ']' rfl⟩
      simp [isSpace, head ' ' rfl, head '\n' rfl, head '\t' rfl, head '\r' rfl]
    · exact ⟨'-', d :: ds, text, rfl, by decide⟩
  · intro fuel rest hf hr
    cases fuel with
    | zero => simp at hf
    | succ fuel => exact readValue_int (short n rfl) hr fuel
  · intro hm
    rcases text with text | text
    · exact other '\r' (text ▸ hm) '\r' rfl rfl
    · rcases List.mem_cons.mp (text ▸ hm) with he | hm
      · cases he
      · exact other '\r' hm '\r' rfl rfl

theorem mem_hexDigits {width n : Nat} {c : Char} (h : c ∈ Text.hexDigits width n) :
    ∃ d < 16, c = Text.hexDigit d := by
  induction width generalizing n with
  | zero => simp [Text.hexDigits] at h
  | succ width ih =>
    simp only [Text.hexDigits, List.mem_append, List.mem_singleton] at h
    rcases h with h | h
    · exact ih h
    · exact ⟨_, Nat.mod_lt _ (by decide), h⟩

theorem return_not_mem_escapeChar (c : Char) : '\r' ∉ escapeChar c := by
  have digits : '\r' ∉ Text.hexDigits 4 c.toNat := by
    intro hm
    obtain ⟨d, hd, he⟩ := mem_hexDigits hm
    exact absurd he (by revert d; decide)
  unfold escapeChar
  split_ifs with quote backslash feed ret
  all_goals first
    | decide
    | simpa using digits
    | simpa using Ne.symm ret

theorem return_not_mem_writeText (s : String) : '\r' ∉ writeText s := by
  simp [writeText, return_not_mem_escapeChar]

theorem keeps_text (l : Layout) (depth : Nat) (s : String) : Keeps l depth (.text s) := by
  refine ⟨writeText s, by rw [write], ⟨⟨'"', _, rfl, by decide, by decide⟩, ?_⟩,
    return_not_mem_writeText s⟩
  intro fuel rest hf hr
  cases fuel with
  | zero => simp at hf
  | succ fuel =>
    simp only [writeText, List.cons_append, List.append_assoc, List.nil_append, readValue,
      readChars_escapedText, String.ofList_toList]

/-! ## Lists and records -/

section

variable {l : Layout} {depth : Nat}

/-- What closes a list or record: blanks and a bracket, which end what is before them. -/
theorem ends_closing {close : Char} (hc : close = ']' ∨ close = '\x7d') (rest : List Char) :
    Ends (l.after depth ++ close :: rest) := by
  refine ends_spaces (l.after_spaces depth) (ends_cons ?_ rest)
  rcases hc with rfl | rfl <;> decide

theorem skipSpace_closing {close : Char} (hc : close = ']' ∨ close = '\x7d') (rest : List Char) :
    skipSpace (l.after depth ++ close :: rest) = close :: rest := by
  rw [skipSpace_spaces (l.after_spaces depth)]
  rcases hc with rfl | rfl <;> exact skipSpace_cons rfl rest

theorem return_not_mem_layout : '\r' ∉ l.before depth ∧ '\r' ∉ l.between depth ∧
    '\r' ∉ l.after depth := by
  cases l <;> simp [Layout.before, Layout.between, Layout.after, List.mem_replicate]

/-- Items behind a first one, with the bracket that closes them. -/
theorem keeps_items {xs : List Datum} (each : ∀ x ∈ xs, Keeps l (depth + 1) x) :
    ∃ t, writeItems l depth xs = .of t ∧ '\r' ∉ t ∧ ∀ s x fuel rest, Reads s x →
      s.length + t.length + 1 < fuel →
        readItems fuel (s ++ (t ++ (l.after depth ++ ']' :: rest))) = .ok (x :: xs, rest) := by
  induction xs with
  | nil =>
    refine ⟨[], by rw [writeItems], by simp, ?_⟩
    intro s x fuel rest hs hf
    cases fuel with
    | zero => simp at hf
    | succ fuel =>
      rw [List.nil_append, readItems,
        hs.reads _ _ (by simp at hf; omega) (ends_closing (.inl rfl) rest), ok_bind]
      simp only [skipSpace_closing (.inl rfl)]
      rfl
  | cons y ys ih =>
    rw [List.forall_mem_cons] at each
    obtain ⟨⟨sy, hwrite, hreads, clean⟩, each⟩ := each
    obtain ⟨t, hws, cleans, hreadItems⟩ := ih each
    obtain ⟨gap, hgap, spaces⟩ := l.between_eq depth
    refine ⟨l.between depth ++ (sy ++ t), ?_, ?_, ?_⟩
    · rw [writeItems, hwrite, hws, setApart_of hwrite]
      simp
    · simp [return_not_mem_layout.2.1, clean, cleans]
    · intro s x fuel rest hs hf
      cases fuel with
      | zero => simp at hf
      | succ fuel =>
        simp only [hgap, List.length_append, List.length_cons] at hf
        have next : Ends ((',' :: gap ++ (sy ++ t)) ++ (l.after depth ++ ']' :: rest)) :=
          ends_cons (by decide) _
        rw [readItems, hgap, hs.reads _ _ (by omega) next, ok_bind]
        simp only [List.cons_append, List.append_assoc, skipSpace_cons (c := ',') rfl]
        rw [skipSpace_spaces spaces, hreads.skipSpace_append,
          hreadItems sy y fuel rest hreads (by omega)]
        rfl

/-- A bracket before something that does not close it opens a list. -/
theorem readValue_bracket {fuel : Nat} {s rest after : List Char} {c : Char} {items : List Datum}
    (hs : skipSpace rest = c :: s) (hc : c ≠ ']')
    (h : readItems fuel (c :: s) = .ok (items, after)) :
    readValue (fuel + 1) ('[' :: rest) = .ok (.list items, after) := by
  rw [readValue, hs]
  split
  · rename_i he
    exact absurd (List.cons.inj he).1 hc
  · rw [h]
    rfl

theorem keeps_list {xs : List Datum} (each : ∀ x ∈ xs, Keeps l (depth + 1) x) :
    Keeps l depth (.list xs) := by
  cases xs with
  | nil =>
    refine ⟨['[', ']'], by rw [write], ⟨⟨'[', [']'], rfl, by decide, by decide⟩, ?_⟩, by decide⟩
    intro fuel rest hf _
    cases fuel with
    | zero => simp at hf
    | succ fuel => rfl
  | cons x xs =>
    rw [List.forall_mem_cons] at each
    obtain ⟨⟨s, hwrite, hreads, clean⟩, each⟩ := each
    obtain ⟨t, hws, cleans, hreadItems⟩ := keeps_items each
    refine ⟨'[' :: l.before depth ++ (s ++ (t ++ (l.after depth ++ [']']))), ?_,
      ⟨⟨'[', _, rfl, by decide, by decide⟩, ?_⟩, ?_⟩
    · rw [write, hwrite, hws, setApart_of hwrite]
      simp
    · intro fuel rest hf _
      cases fuel with
      | zero => simp at hf
      | succ fuel =>
        simp only [List.cons_append, List.length_cons, List.length_append] at hf
        obtain ⟨c, more, hs, hc, close⟩ := hreads.starts
        have start : skipSpace (l.before depth ++ (s ++ (t ++ (l.after depth ++ ']' :: rest)))) =
            s ++ (t ++ (l.after depth ++ ']' :: rest)) := by
          rw [skipSpace_spaces (l.before_spaces depth), hreads.skipSpace_append]
        have items := hreadItems s x fuel rest hreads (by omega)
        simp only [List.cons_append, List.append_assoc, List.nil_append]
        rw [hs, List.cons_append] at start items
        rw [hs]
        exact readValue_bracket start close items
    · simp [return_not_mem_layout, clean, cleans]

/-- An entry of a record: its key, and the text of its value. -/
def entryText (k : String) (s : List Char) : List Char := writeText k ++ ':' :: ' ' :: s

theorem skipSpace_entryText (k : String) (s : List Char) :
    skipSpace (entryText k s) = entryText k s := by
  simp only [entryText, writeText, List.cons_append, skipSpace_cons (c := '"') rfl]

theorem entryText_append (k : String) (s t : List Char) :
    entryText k s ++ t = entryText k (s ++ t) := by
  simp [entryText]

theorem write_entry {k : String} {x : Datum} {s : List Char}
    (h : write l (depth + 1) x = .of s) :
    writeEntry l depth (.text k) x = .of (entryText k s) := by
  rw [writeEntry, keyText, h]
  simp [entryText, Written.andThen, Written.of]

/-- What is left of an entry once its key and value are read. -/
theorem readEntries_entry {fuel : Nat} {s : List Char} {x : Datum} (k : String) (hs : Reads s x)
    (hf : s.length < fuel) (hr : Ends rest) :
    readEntries (fuel + 1) (entryText k (s ++ rest)) =
      match skipSpace rest with
      | '\x7d' :: rest => .ok ([(k, x)], rest)
      | ',' :: rest => do
        let (entries, rest) ← readEntries fuel (skipSpace rest)
        pure ((k, x) :: entries, rest)
      | _ => .error .malformed := by
  have colon (more : List Char) : skipSpace (':' :: more) = ':' :: more := skipSpace_cons rfl more
  have gap : skipSpace (' ' :: (s ++ rest)) = s ++ rest := by
    rw [← List.singleton_append, skipSpace_spaces (s := [' ']) (by simp [isSpace]),
      hs.skipSpace_append]
  simp only [entryText, writeText, List.cons_append, List.append_assoc, List.nil_append,
    readEntries, readChars_escapedText, colon, gap, hs.reads fuel rest hf hr, ok_bind,
    String.ofList_toList]
  rfl

/-- Entries behind a first one, with the brace that closes them. -/
theorem keeps_entries {es : List (String × Datum)} (each : ∀ e ∈ es, Keeps l (depth + 1) e.2) :
    ∃ t, writeEntries l depth (es.map fun e => (.text e.1, e.2)) = .of t ∧ '\r' ∉ t ∧
      ∀ k s x fuel rest, Reads s x → s.length + t.length + 1 < fuel →
        readEntries fuel (entryText k (s ++ (t ++ (l.after depth ++ '\x7d' :: rest)))) =
          .ok ((k, x) :: es, rest) := by
  induction es with
  | nil =>
    refine ⟨[], by rw [List.map_nil, writeEntries], by simp, ?_⟩
    intro k s x fuel rest hs hf
    cases fuel with
    | zero => simp at hf
    | succ fuel =>
      rw [List.nil_append, readEntries_entry k hs (by simp at hf; omega)
        (ends_closing (.inr rfl) rest), skipSpace_closing (.inr rfl)]
      rfl
  | cons e es ih =>
    obtain ⟨k', y⟩ := e
    rw [List.forall_mem_cons] at each
    obtain ⟨⟨sy, hwrite, hreads, clean⟩, each⟩ := each
    obtain ⟨t, hws, cleans, hreadEntries⟩ := ih each
    obtain ⟨gap, hgap, spaces⟩ := l.between_eq depth
    refine ⟨l.between depth ++ entryText k' (sy ++ t), ?_, ?_, ?_⟩
    · rw [List.map_cons, writeEntries, keyText, write_entry hwrite, hws]
      simp [Written.andThen, Written.of, entryText_append]
    · simp [return_not_mem_layout.2.1, return_not_mem_writeText, entryText, clean, cleans]
    · intro k s x fuel rest hs hf
      cases fuel with
      | zero => simp at hf
      | succ fuel =>
        simp only [hgap, entryText, List.length_append, List.length_cons] at hf
        have next : Ends ((l.between depth ++ entryText k' (sy ++ t)) ++
            (l.after depth ++ '\x7d' :: rest)) := by
          rw [hgap]
          exact ends_cons (by decide) _
        rw [readEntries_entry k hs (by omega) next, hgap]
        simp only [List.cons_append, List.append_assoc, skipSpace_cons (c := ',') rfl,
          entryText_append]
        rw [skipSpace_spaces spaces, skipSpace_entryText,
          hreadEntries k' sy y fuel rest hreads (by omega)]
        rfl

/-- A brace before an entry opens a record, whose keys stay in their order where they differ. -/
theorem readValue_brace {fuel : Nat} {k : String} {s rest after : List Char}
    {es : List (String × Datum)} (hs : skipSpace rest = entryText k s)
    (keys : (es.map (·.1)).Nodup) (h : readEntries fuel (entryText k s) = .ok (es, after)) :
    readValue (fuel + 1) ('\x7b' :: rest) = .ok (.record es, after) := by
  have join : joinEntries es = es.map fun e => (.text e.1, e.2) := @Datum.foldl_put [] es keys
  rw [readValue, hs]
  split
  · rename_i he
    cases (List.cons.inj he).1
  · rw [h, ok_bind]
    simp only [join]
    rfl

theorem keeps_record {es : List (String × Datum)} (keys : (es.map (·.1)).Nodup)
    (each : ∀ e ∈ es, Keeps l (depth + 1) e.2) : Keeps l depth (.record es) := by
  cases es with
  | nil =>
    refine ⟨['\x7b', '\x7d'], by rw [Datum.record, List.map_nil, write],
      ⟨⟨'\x7b', ['\x7d'], rfl, by decide, by decide⟩, ?_⟩, by decide⟩
    intro fuel rest hf _
    cases fuel with
    | zero => simp at hf
    | succ fuel => rfl
  | cons e es =>
    obtain ⟨k, x⟩ := e
    rw [List.forall_mem_cons] at each
    obtain ⟨⟨s, hwrite, hreads, clean⟩, each⟩ := each
    obtain ⟨t, hws, cleans, hreadEntries⟩ := keeps_entries each
    refine ⟨'\x7b' :: l.before depth ++ entryText k (s ++ (t ++ (l.after depth ++ ['\x7d']))), ?_,
      ⟨⟨'\x7b', _, rfl, by decide, by decide⟩, ?_⟩, ?_⟩
    · rw [Datum.record, List.map_cons, write, write_entry hwrite, hws]
      simp [Written.andThen, Written.of, entryText_append]
    · intro fuel rest hf _
      cases fuel with
      | zero => simp at hf
      | succ fuel =>
        simp only [entryText, List.cons_append, List.length_cons, List.length_append] at hf
        have start : skipSpace (l.before depth ++ entryText k (s ++ (t ++ (l.after depth ++
            '\x7d' :: rest)))) = entryText k (s ++ (t ++ (l.after depth ++ '\x7d' :: rest))) := by
          rw [skipSpace_spaces (l.before_spaces depth), skipSpace_entryText]
        have entries := hreadEntries k s x fuel rest hreads (by omega)
        simp only [List.cons_append, List.append_assoc, List.nil_append, entryText_append]
        exact readValue_brace start keys entries
    · simp [return_not_mem_layout, return_not_mem_writeText, entryText, clean, cleans]

end

/-- Plain data are written whole and read back, but for numbers that are too long to be read. -/
theorem keeps_plain {d : Datum} {n : Nat} (h : d.Plain n) (short : ∀ x ∈ d.leaves, x.IsShort)
    (l : Layout) (depth : Nat) : Keeps l depth d := by
  induction h generalizing depth with
  | null => exact keeps_null l depth
  | int k => exact keeps_int l depth (short _ (by simp))
  | text s => exact keeps_text l depth s
  | list _ ih =>
    exact keeps_list fun x hx => ih x hx (Datum.leaves_of_mem_list short hx) (depth + 1)
  | record keys _ _ ih =>
    exact keeps_record keys fun e he =>
      ih e he (Datum.leaves_of_mem_record short he).2 (depth + 1)

/-- What is written of plain data, with a line feed after it, is read as these data. -/
theorem read_write {d : Datum} {n : Nat} (h : d.Plain n) (short : ∀ x ∈ d.leaves, x.IsShort)
    (l : Layout) :
    ∃ s, write l 0 d = .of s ∧ '\r' ∉ s ∧ readChars? (s ++ ['\n']) = .ok d := by
  obtain ⟨s, hwrite, hreads, clean⟩ := keeps_plain h short l 0
  have value := hreads.reads ((s ++ ['\n']).length + 1) ['\n']
    (by rw [List.length_append]; omega) (ends_cons (by decide) [])
  refine ⟨s, hwrite, clean, ?_⟩
  rw [readChars?, hreads.skipSpace_append, value, ok_bind]
  rfl

end Neogrammar.Json
