import Mathlib.Tactic.SplitIfs
import Neogrammar.Proofs.Outcome
import Neogrammar.Proofs.Yaml.Place

/-!
# Texts in quotes

How a text in quotes is read, from any place within it on: a word is read up to a blank, a break or
the closing quote, and what lies between two words is a gap. What is read from a place on follows
from what is read from the next place on.
-/
namespace Neogrammar.Yaml

/-- The sign that closes a text in quotes. -/
def closingQuote (double : Bool) : Char := if double then '"' else '\''

/-- A word within quotes is read, with any fuel that is enough. -/
def ReadsWord (double : Bool) (c : Cursor) (w : List Char) (after : Cursor) : Prop :=
  ∀ fuel, c.rest.length < fuel → quotedWord double fuel c = .ok (w, after)

/-- The rest of a text in quotes is read, up to and with the closing quote. -/
inductive Closes (double : Bool) : Cursor → List Char → Cursor → Prop
  | close {c after : Cursor} {w : List Char} (word : ReadsWord double c w after)
      (quote : after.next? = some (closingQuote double)) : Closes double c w after.step
  | gap {c after mid last : Cursor} {w gap more : List Char} (word : ReadsWord double c w after)
      (going : after.next? ≠ some (closingQuote double)) (between : quotedGap after = .ok (gap, mid))
      (shorter : mid.rest.length < c.rest.length) (rest : Closes double mid more last) :
      Closes double c (w ++ (gap ++ more)) last

variable {double : Bool} {c d after last : Cursor} {s w : List Char}

theorem Closes.read (h : Closes double c s last) {fuel : Nat} (hf : c.rest.length < fuel) :
    quotedRest double fuel c = .ok (s, last) := by
  induction h generalizing fuel with
  | @close c after w word quote =>
    obtain ⟨fuel, rfl⟩ := Nat.exists_eq_add_of_lt hf
    rw [quotedRest, word _ (Nat.lt_succ_self _), ok_bind]
    simp only [quote, closingQuote, BEq.rfl, if_true]
    rfl
  | @gap c after mid last w gap more word going between shorter rest ih =>
    cases fuel with
    | zero => exact absurd hf (Nat.not_lt_zero _)
    | succ fuel =>
      rw [quotedRest, word _ (Nat.lt_succ_self _), ok_bind]
      have closed : ¬ (after.next? == some (if double = true then '"' else '\'')) = true := by
        simpa [closingQuote] using going
      simp only [closed, if_false, Bool.false_eq_true, between, ok_bind, ih (by omega : _ < fuel)]
      rw [← List.append_assoc]
      rfl

/-- What stands before a word is read with it. -/
theorem Closes.prepend {x : List Char} (h : Closes double d s last)
    (word : ∀ w after, ReadsWord double d w after → ReadsWord double c (x ++ w) after)
    (le : d.rest.length ≤ c.rest.length) : Closes double c (x ++ s) last := by
  cases h with
  | close hw quote => exact .close (word _ _ hw) quote
  | gap hw going between shorter rest =>
    rw [← List.append_assoc]
    exact .gap (word _ _ hw) going between (Nat.lt_of_lt_of_le shorter le) rest

/-! ## Words -/

theorem ReadsWord.unique {v : List Char} {before : Cursor} (h : ReadsWord double c w after)
    (h' : ReadsWord double c v before) : w = v ∧ after = before := by
  have := (h _ (Nat.lt_succ_self _)).symm.trans (h' _ (Nat.lt_succ_self _))
  simpa using this

/-- A blank, a break or the closing quote ends a word. -/
theorem readsWord_nil {ch : Char} (next : c.next? = some ch) (stop : isQuotedStop ch = true)
    (escape : ch ≠ '\\') (quote : ch = '\'' → double = false ∧ c.at? 1 ≠ some '\'')
    (mark : ch = '"' → double = true) : ReadsWord double c [] c := by
  intro fuel hf
  obtain ⟨fuel, rfl⟩ := Nat.exists_eq_add_of_lt hf
  have none : c.span (fun ch => !isQuotedStop ch) = ([], c) :=
    Cursor.span_stop (by simp [next, stop])
  rw [quotedWord, none]
  simp only [next]
  by_cases hq : ch = '\''
  · obtain ⟨hd, hn⟩ := quote hq
    simp [hq, hd, hn]
  · by_cases hm : ch = '"'
    · simp [hm, mark hm]
    · simp [hq, hm, escape]

theorem readsWord_char {ch : Char} (h : c.Goes [ch] d) (plain : isQuotedStop ch = false)
    (hw : ReadsWord double d w after) : ReadsWord double c (ch :: w) after := by
  intro fuel hf
  cases fuel with
  | zero => exact absurd hf (Nat.not_lt_zero _)
  | succ fuel =>
    have span : c.span (fun ch => !isQuotedStop ch) =
        (ch :: (d.span fun ch => !isQuotedStop ch).1, (d.span fun ch => !isQuotedStop ch).2) := by
      have taken : c.rest.takeWhile (fun ch => !isQuotedStop ch) =
          ch :: d.rest.takeWhile fun ch => !isQuotedStop ch := by
        rw [h.1, List.singleton_append, List.takeWhile_cons_of_pos (by simp [plain])]
      have step : c.step = d := h.2
      simp only [Cursor.span, taken, List.length_cons, Cursor.advance, step]
    have read := hw (fuel + 1) (by rw [h.length, List.length_singleton] at hf; omega)
    rw [quotedWord] at read ⊢
    rw [span]
    simp only at read ⊢
    split_ifs at read ⊢ with h₁ h₂ h₃ h₄
    · obtain ⟨r, hr, read⟩ := bind_eq_ok_iff.mp read
      cases read
      rw [hr]
      rfl
    · obtain ⟨r, hr, read⟩ := bind_eq_ok_iff.mp read
      cases read
      rw [hr]
      rfl
    · obtain ⟨r, hr, read⟩ := bind_eq_ok_iff.mp read
      cases read
      rw [hr]
      rfl
    · obtain ⟨⟨e, more⟩, he, read⟩ := bind_eq_ok_iff.mp read
      obtain ⟨r, hr, read⟩ := bind_eq_ok_iff.mp read
      cases read
      rw [he, ok_bind, hr]
      rfl
    · cases read
      rfl

theorem span_quotedStop {ch : Char} (next : c.next? = some ch) (stop : isQuotedStop ch = true) :
    c.span (fun ch => !isQuotedStop ch) = ([], c) :=
  Cursor.span_stop (by simp [next, stop])

/-- Between single quotes a single quote is written twice. -/
theorem readsWord_doubled (h : c.Goes ['\'', '\''] d) (hw : ReadsWord false d w after) :
    ReadsWord false c ('\'' :: w) after := by
  intro fuel hf
  cases fuel with
  | zero => exact absurd hf (Nat.not_lt_zero _)
  | succ fuel =>
    have after : c.at? 1 = some '\'' := by rw [Cursor.at?, h.1]; rfl
    have read := hw fuel (by rw [h.length] at hf; simp at hf; omega)
    have step : c.advance 2 = d := h.2
    rw [quotedWord, span_quotedStop h.next? rfl]
    simp only [h.next?, after, step, read]
    rfl

/-- Between single quotes no other sign means anything. -/
theorem readsWord_sign {ch : Char} (hc : ch = '"' ∨ ch = '\\') (h : c.Goes [ch] d)
    (hw : ReadsWord false d w after) : ReadsWord false c (ch :: w) after := by
  intro fuel hf
  cases fuel with
  | zero => exact absurd hf (Nat.not_lt_zero _)
  | succ fuel =>
    have read := hw fuel (by rw [h.length, List.length_singleton] at hf; omega)
    have step : c.step = d := h.2
    rw [quotedWord, span_quotedStop h.next? (by rcases hc with rfl | rfl <;> rfl)]
    rcases hc with rfl | rfl
    · simp only [h.next?, step, read]
      rfl
    · simp only [h.next?, step, read]
      rfl

/-- Between double quotes a single quote stands for itself. -/
theorem readsWord_quote (h : c.Goes ['\''] d) (hw : ReadsWord true d w after) :
    ReadsWord true c ('\'' :: w) after := by
  intro fuel hf
  cases fuel with
  | zero => exact absurd hf (Nat.not_lt_zero _)
  | succ fuel =>
    have read := hw fuel (by rw [h.length, List.length_singleton] at hf; omega)
    have step : c.step = d := h.2
    rw [quotedWord, span_quotedStop h.next? rfl]
    simp only [h.next?, step, read]
    rfl

theorem readsWord_escape {e : List Char} {f : Cursor} (h : c.Goes ['\\'] d)
    (he : readEscape d = .ok (e, f)) (le : f.rest.length ≤ d.rest.length)
    (hw : ReadsWord true f w after) : ReadsWord true c (e ++ w) after := by
  intro fuel hf
  cases fuel with
  | zero => exact absurd hf (Nat.not_lt_zero _)
  | succ fuel =>
    have read := hw fuel (by rw [h.length, List.length_singleton] at hf; omega)
    have step : c.step = d := h.2
    rw [quotedWord, span_quotedStop h.next? rfl]
    simp only [h.next?, step, he]
    show (quotedWord true fuel f >>= fun r => pure (e ++ r.1, r.2)) = _
    rw [read]
    rfl

/-- A blank or a break starts a gap. -/
theorem Closes.after_gap {gap : List Char} {mid : Cursor} {ch : Char} (h : Closes double mid s last)
    (next : c.next? = some ch) (stop : isBlank ch = true ∨ isBreak ch = true)
    (between : quotedGap c = .ok (gap, mid)) (shorter : mid.rest.length < c.rest.length) :
    Closes double c (gap ++ s) last := by
  have apart {d : Char} (hb : isBlank d = false) (hl : isBreak d = false) : ch ≠ d := by
    rintro rfl
    rcases stop with stop | stop
    · rw [hb] at stop
      exact absurd stop Bool.false_ne_true
    · rw [hl] at stop
      exact absurd stop Bool.false_ne_true
  have word : ReadsWord double c [] c :=
    readsWord_nil next (by rcases stop with stop | stop <;> simp [isQuotedStop, stop])
      (apart rfl rfl) (fun h => absurd h (apart rfl rfl)) fun h => absurd h (apart rfl rfl)
  refine .gap word ?_ between shorter h
  rw [next, closingQuote, ne_eq, Option.some.injEq]
  split
  · exact apart rfl rfl
  · exact apart rfl rfl

/-! ## Gaps -/

/-- A character that belongs to a word comes next. -/
def Firm (c : Cursor) : Prop := ∃ ch, c.next? = some ch ∧ isBlank ch = false ∧ isBreak ch = false

theorem Firm.not_blank (h : Firm c) : ∀ ch ∈ c.next?, isBlank ch = false := by
  obtain ⟨ch, next, blank, -⟩ := h
  rintro _ hc
  obtain rfl : ch = _ := Option.some.inj (next.symm.trans hc)
  exact blank

theorem Firm.not_break (h : Firm c) : c.takeBreak? = none := by
  obtain ⟨ch, next, -, plain⟩ := h
  refine Cursor.takeBreak?_none fun _ hc => ?_
  obtain rfl : ch = _ := Option.some.inj (next.symm.trans hc)
  exact plain

theorem Firm.rest_ne_nil (h : Firm c) : c.rest.isEmpty = false := by
  obtain ⟨ch, next, -⟩ := h
  obtain ⟨rest, hr⟩ := List.head?_eq_some_iff.mp next
  rw [hr]
  rfl

variable {text : List Char} {p : Pen} {column n : Nat}

theorem blank_spaces : ∀ c ∈ List.replicate n ' ', isBlank c = true := by
  intro c hc
  rw [List.eq_of_mem_replicate hc]
  rfl

theorem quotedGap_spaces (h : (p.write (List.replicate n ' ')).Within text)
    (firm : Firm ((p.write (List.replicate n ' ')).cursor text)) :
    quotedGap (p.cursor text) =
      .ok (List.replicate n ' ', (p.write (List.replicate n ' ')).cursor text) := by
  rw [quotedGap, Pen.span_write h (Pen.flat_spaces n) blank_spaces firm.not_blank]
  simp only [firm.rest_ne_nil, firm.not_break, Bool.false_eq_true, if_false]

/-- Breaks are read one by one; the spaces after the last of them are passed over. -/
theorem quotedBreaks_lines {bs : List Char} (keeps : ∀ b ∈ bs, Pen.KeepsBreak b)
    (pos : 0 < column)
    (h : ((bs.foldl Pen.breakLine p).write (List.replicate column ' ')).Within text)
    (firm : Firm (((bs.foldl Pen.breakLine p).write (List.replicate column ' ')).cursor text))
    {fuel : Nat} (hf : bs.length < fuel) :
    quotedBreaks fuel (p.cursor text) =
      .ok (bs, ((bs.foldl Pen.breakLine p).write (List.replicate column ' ')).cursor text) := by
  induction bs generalizing p fuel with
  | nil =>
    obtain ⟨fuel, rfl⟩ := Nat.exists_eq_add_of_lt hf
    rw [List.foldl_nil] at h firm ⊢
    have marker : (p.cursor text).atMarker = false := by
      obtain ⟨n, rfl⟩ := Nat.exists_eq_succ_of_ne_zero (Nat.pos_iff_ne_zero.mp pos)
      exact Cursor.not_atMarker (Pen.next?_write (s := List.replicate n ' ') h) (by decide)
        (by decide)
    have span := Pen.span_write h (Pen.flat_spaces column) blank_spaces firm.not_blank
    simp only [quotedBreaks, marker, Bool.false_eq_true, if_false, Cursor.skip, span,
      firm.not_break]
  | cons b bs ih =>
    obtain ⟨fuel, rfl⟩ := Nat.exists_eq_add_of_lt hf
    obtain ⟨hb, hbs⟩ := List.forall_mem_cons.mp keeps
    rw [List.foldl_cons] at h firm ⊢
    have line : (p.breakLine b).Within text :=
      h.of_onward ((Pen.onward_breakLines _ bs).trans (Pen.onward_write _ _))
    have next := Pen.next?_breakLine line
    have marker : (p.cursor text).atMarker = false :=
      Cursor.not_atMarker next (by rcases hb with rfl | rfl | rfl <;> decide)
        (by rcases hb with rfl | rfl | rfl <;> decide)
    have stop : ∀ ch ∈ (p.cursor text).next?, isBlank ch = false := by
      rw [next]
      rintro ch ⟨⟩
      rcases hb with rfl | rfl | rfl <;> rfl
    have more := ih hbs h firm (by omega : bs.length < bs.length + 1 + fuel)
    simp only [List.length_cons, quotedBreaks, marker, Bool.false_eq_true, if_false, Cursor.skip,
      Cursor.span_stop stop, Pen.takeBreak?_breakLine line hb]
    rw [more]
    rfl

/-- A gap with breaks in it is folded. -/
theorem quotedGap_lines {b : Char} {bs : List Char} (keeps : ∀ c ∈ b :: bs, Pen.KeepsBreak c)
    (pos : 0 < column)
    (h : (((b :: bs).foldl Pen.breakLine p).write (List.replicate column ' ')).Within text)
    (firm : Firm ((((b :: bs).foldl Pen.breakLine p).write
      (List.replicate column ' ')).cursor text)) :
    quotedGap (p.cursor text) = .ok (foldBreaks b bs,
      (((b :: bs).foldl Pen.breakLine p).write (List.replicate column ' ')).cursor text) := by
  obtain ⟨hb, hbs⟩ := List.forall_mem_cons.mp keeps
  rw [List.foldl_cons] at h firm ⊢
  have line : (p.breakLine b).Within text :=
    h.of_onward ((Pen.onward_breakLines _ bs).trans (Pen.onward_write _ _))
  have next := Pen.next?_breakLine line
  have stop : ∀ ch ∈ (p.cursor text).next?, isBlank ch = false := by
    rw [next]
    rintro ch ⟨⟩
    rcases hb with rfl | rfl | rfl <;> rfl
  have filled : (p.cursor text).rest.isEmpty = false := by
    rw [Pen.rest_breakLine line]
    rfl
  have fuel : bs.length < ((p.breakLine b).cursor text).rest.length + 1 := by
    have lines := Pen.length_breakLines (p.breakLine b) bs
    have bound := h.length_le
    simp only [Pen.cursor, Pen.write, List.length_reverse, List.length_append, List.length_drop]
      at lines bound ⊢
    omega
  rw [quotedGap, Cursor.span_stop stop]
  simp only [filled, Bool.false_eq_true, if_false, Pen.takeBreak?_breakLine line hb,
    quotedBreaks_lines hbs pos h firm fuel]
  rfl

end Neogrammar.Yaml
