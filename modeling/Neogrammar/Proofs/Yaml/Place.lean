import Mathlib.Tactic.SplitIfs
import Neogrammar.Yaml.Write

/-!
# Pens as places of a text

What a pen writes later is the rest of a text that a reader sees from the place of the pen. Every
writer goes on from what is written already, and a reader that goes past the characters that a pen
wrote comes to the place of that pen.
-/
namespace Neogrammar.Yaml

/-- A character that takes one column. -/
def isFlat (c : Char) : Bool := !isBreak c && c != '\ufeff'

/-- A character of a word. -/
def isSolid (c : Char) : Bool := !isBlank c && isFlat c

theorem isSolid_of_not_isSpecial {c : Char} (special : isSpecial c = false)
    (lineEnd : isLineEnd c = false) (space : c ≠ ' ') : isSolid c = true := by
  have tab : c ≠ '\t' := by
    rintro rfl
    exact absurd special (by decide)
  have ret : c ≠ '\r' := by
    rintro rfl
    exact absurd special (by decide)
  have mark : c ≠ '\ufeff' := by
    rintro rfl
    exact absurd special (by decide)
  simp only [isLineEnd, Bool.or_eq_false_iff, beq_eq_false_iff_ne] at lineEnd
  simp [isSolid, isBlank, isFlat, isBreak, space, tab, ret, mark, lineEnd]

namespace Cursor

variable {c : Cursor}

theorem span_stop {f : Char → Bool} (stop : ∀ ch ∈ c.next?, f ch = false) :
    c.span f = ([], c) := by
  have taken : c.rest.takeWhile f = [] := by
    rw [Cursor.next?] at stop
    cases hr : c.rest with
    | nil => rfl
    | cons ch rest =>
      rw [hr] at stop
      rw [List.takeWhile_cons_of_neg]
      simpa using stop ch rfl
  rw [Cursor.span, taken]
  rfl

theorem takeBreak?_none (h : ∀ ch ∈ c.next?, isBreak ch = false) :
    c.takeBreak? = none := by
  rw [Cursor.next?] at h
  rw [Cursor.takeBreak?]
  cases hr : c.rest with
  | nil => rfl
  | cons ch rest =>
    rw [hr] at h
    have plain : isBreak ch = false := h ch rfl
    have notReturn : ch ≠ '\r' := by
      rintro rfl
      simp [isBreak] at plain
    simp [plain, notReturn]

/-- Nothing is left to be skipped before the next character. -/
def Rests (c : Cursor) : Prop := ∀ ch ∈ c.next?, ch ≠ ' ' ∧ isBreak ch = false

theorem Rests.not_space (h : c.Rests) : ∀ ch ∈ c.next?, isSpace ch = false := by
  intro ch hc
  simpa [isSpace] using (h ch hc).1

theorem Rests.not_break (h : c.Rests) : c.takeBreak? = none :=
  takeBreak?_none fun ch hc => (h ch hc).2

/-- The characters `s` lie between two places of a line. -/
def Goes (c : Cursor) (s : List Char) (d : Cursor) : Prop :=
  c.rest = s ++ d.rest ∧ c.advance s.length = d

theorem rest_step {ch : Char} {rest : List Char} (h : c.rest = ch :: rest) : c.step.rest = rest := by
  rw [step, h]
  dsimp only
  split_ifs <;> rfl

theorem Goes.next? {d : Cursor} {ch : Char} {s : List Char} (h : c.Goes (ch :: s) d) :
    c.next? = some ch := by
  rw [Cursor.next?, h.1]
  rfl

theorem Goes.length {d : Cursor} {s : List Char} (h : c.Goes s d) :
    c.rest.length = s.length + d.rest.length := by
  rw [h.1, List.length_append]

theorem not_atMarker {ch : Char} (h : c.next? = some ch) (dash : ch ≠ '-') (dot : ch ≠ '.') :
    c.atMarker = false := by
  obtain ⟨rest, hr⟩ := List.head?_eq_some_iff.mp h
  simp [atMarker, atTriple, hr, dash.symm, dot.symm]

end Cursor

namespace Pen

/-- What `p` wrote is the start of what `q` wrote. -/
def Onward (p q : Pen) : Prop := p.reversed <:+ q.reversed

/-- What a pen wrote is the start of a text. -/
def Within (text : List Char) (p : Pen) : Prop := p.reversed.reverse <+: text

/-- The place of a pen, for a reader of a text that it is within. -/
def cursor (text : List Char) (p : Pen) : Cursor :=
  ⟨text.drop p.reversed.length, p.reversed.length, p.reversed.countP isBreak, p.column⟩

variable {text : List Char} {p q r : Pen}

theorem Onward.refl (p : Pen) : p.Onward p := List.suffix_refl _

theorem Onward.trans (h : p.Onward q) (h' : q.Onward r) : p.Onward r := List.IsSuffix.trans h h'

theorem onward_write (p : Pen) (s : List Char) : p.Onward (p.write s) := List.suffix_append _ _

theorem onward_breakLine (p : Pen) (c : Char) : p.Onward (p.breakLine c) := List.suffix_cons _ _

theorem onward_breakLines (p : Pen) (s : List Char) : p.Onward (s.foldl breakLine p) := by
  induction s generalizing p with
  | nil => exact .refl p
  | cons c s ih => exact (onward_breakLine p c).trans (ih _)

theorem length_breakLines (p : Pen) (s : List Char) :
    (s.foldl breakLine p).reversed.length = p.reversed.length + s.length := by
  induction s generalizing p with
  | nil => rfl
  | cons c s ih =>
    rw [List.foldl_cons, ih]
    simp only [breakLine, List.length_cons]
    omega

theorem onward_writeBreaks (p : Pen) (s : List Char) : p.Onward (writeBreaks p s) := by
  unfold writeBreaks
  dsimp only
  split
  · exact (onward_breakLine p '\n').trans (onward_breakLines _ s)
  · exact onward_breakLines p s

theorem onward_indentTo (p : Pen) (column : Nat) : p.Onward (p.indentTo column) := by
  have reach (r : Pen) : r.Onward (if r.column < column
      then { r.write (List.replicate (column - r.column) ' ') with afterBlank := true } else r) := by
    split
    · exact onward_write r _
    · exact .refl r
  unfold indentTo
  dsimp only
  split
  · exact (onward_breakLine p '\n').trans (reach _)
  · exact reach p

theorem onward_foldTo (p : Pen) (column : Nat) : p.Onward (p.foldTo column) :=
  onward_indentTo p column

theorem onward_sign (p : Pen) (s : List Char) (apart opensItem : Bool) :
    p.Onward (p.sign s apart opensItem) :=
  onward_write p _

theorem Within.of_onward (h : q.Within text) (onward : p.Onward q) : p.Within text :=
  (List.reverse_prefix.mpr onward).trans h

theorem Within.before_write {s : List Char} (h : (p.write s).Within text) : p.Within text :=
  h.of_onward (onward_write p s)

/-! ## Reading past what was written -/

theorem rest_onward {s : List Char} (h : q.Within text) (hq : q.reversed = s.reverse ++ p.reversed) :
    (p.cursor text).rest = s ++ (q.cursor text).rest := by
  obtain ⟨rest, rfl⟩ := h
  simp only [cursor, hq, List.reverse_append, List.reverse_reverse, List.append_assoc,
    List.length_append, List.length_reverse]
  rw [List.drop_append_of_le_length (by simp), List.drop_of_length_le (by simp), List.nil_append,
    ← List.append_assoc, List.drop_append_of_le_length (by simp [Nat.add_comm]),
    List.drop_of_length_le (by simp [Nat.add_comm]), List.nil_append]

theorem rest_write {s : List Char} (h : (p.write s).Within text) :
    (p.cursor text).rest = s ++ ((p.write s).cursor text).rest :=
  rest_onward h rfl

theorem rest_breakLine {c : Char} (h : (p.breakLine c).Within text) :
    (p.cursor text).rest = c :: ((p.breakLine c).cursor text).rest :=
  rest_onward (s := [c]) h rfl

theorem next?_write {c : Char} {s : List Char} (h : (p.write (c :: s)).Within text) :
    (p.cursor text).next? = some c := by
  rw [Cursor.next?, rest_write h]
  rfl

theorem next?_breakLine {c : Char} (h : (p.breakLine c).Within text) :
    (p.cursor text).next? = some c := by
  rw [Cursor.next?, rest_breakLine h]
  rfl

theorem length_rest_onward (h : p.Onward q) :
    (q.cursor text).rest.length ≤ (p.cursor text).rest.length := by
  have := h.length_le
  simp only [cursor, List.length_drop]
  omega

theorem line_onward (h : p.Onward q) : (p.cursor text).line ≤ (q.cursor text).line :=
  h.sublist.countP_le

theorem length_rest_lt (h : q.Within text) (lt : p.reversed.length < q.reversed.length) :
    (q.cursor text).rest.length < (p.cursor text).rest.length := by
  have bound := h.length_le
  simp only [cursor, List.length_drop, List.length_reverse] at bound ⊢
  omega

theorem at?_write {c : Char} (h : (p.write [c]).Within text) :
    (p.cursor text).at? 1 = ((p.write [c]).cursor text).next? := by
  rw [Cursor.at?, rest_write h, Cursor.next?, List.head?_eq_getElem?]
  rfl

theorem step_write {c : Char} (h : (p.write [c]).Within text) (flat : isFlat c = true) :
    (p.cursor text).step = (p.write [c]).cursor text := by
  have rest := rest_write h
  simp only [isFlat, Bool.and_eq_true, Bool.not_eq_true', bne_iff_ne] at flat
  rw [Cursor.step, rest]
  simp [flat.1, flat.2, cursor, write]

theorem step_breakLine {c : Char} (h : (p.breakLine c).Within text) (hb : isBreak c = true)
    (hc : c ≠ '\r') : (p.cursor text).step = (p.breakLine c).cursor text := by
  have rest := rest_breakLine h
  rw [Cursor.step, rest]
  simp [hb, hc, cursor, breakLine]

theorem write_cons (p : Pen) (c : Char) (s : List Char) :
    p.write (c :: s) = (p.write [c]).write s := by
  simp only [write, List.reverse_cons, List.append_assoc, List.length_cons, List.reverse_nil,
    List.nil_append, List.length_nil, Pen.mk.injEq, true_and, and_true]
  omega

theorem write_append (p : Pen) (s t : List Char) : p.write (s ++ t) = (p.write s).write t := by
  simp only [write, List.reverse_append, List.append_assoc, List.length_append, Pen.mk.injEq,
    true_and, and_true]
  omega

@[simp] theorem write_nil (p : Pen) : p.write [] = p := rfl

theorem advance_write {s : List Char} (h : (p.write s).Within text)
    (flat : ∀ c ∈ s, isFlat c = true) :
    (p.cursor text).advance s.length = (p.write s).cursor text := by
  induction s generalizing p with
  | nil => rfl
  | cons c s ih =>
    rw [write_cons] at h ⊢
    rw [List.length_cons, Cursor.advance, step_write h.before_write (flat c List.mem_cons_self),
      ih h fun d hd => flat d (List.mem_cons_of_mem c hd)]

theorem goes_write {s : List Char} (h : (p.write s).Within text) (flat : ∀ c ∈ s, isFlat c = true) :
    (p.cursor text).Goes s ((p.write s).cursor text) :=
  ⟨rest_write h, advance_write h flat⟩

/-- A reader that goes over all characters that satisfy a condition comes to the pen that wrote
them, if the next one does not satisfy it. -/
theorem span_write {f : Char → Bool} {s : List Char} (h : (p.write s).Within text)
    (flat : ∀ c ∈ s, isFlat c = true) (each : ∀ c ∈ s, f c = true)
    (stop : ∀ c ∈ ((p.write s).cursor text).next?, f c = false) :
    (p.cursor text).span f = (s, (p.write s).cursor text) := by
  have taken : ((p.cursor text).rest).takeWhile f = s := by
    rw [rest_write h, List.takeWhile_append_of_pos each]
    have last : (((p.write s).cursor text).rest).takeWhile f = [] := by
      rw [Cursor.next?] at stop
      cases hr : ((p.write s).cursor text).rest with
      | nil => rfl
      | cons c rest =>
        rw [hr] at stop
        rw [List.takeWhile_cons_of_neg]
        simpa using stop c rfl
    rw [last, List.append_nil]
  rw [Cursor.span, taken, advance_write h flat]

/-- A break that is read as it is. -/
def KeepsBreak (c : Char) : Prop := c = '\n' ∨ c = '\u2028' ∨ c = '\u2029'

theorem takeBreak?_breakLine {c : Char} (h : (p.breakLine c).Within text) (hc : KeepsBreak c) :
    (p.cursor text).takeBreak? = some (c, (p.breakLine c).cursor text) := by
  have rest := rest_breakLine h
  have step := step_breakLine h (by rcases hc with rfl | rfl | rfl <;> rfl)
    (by rcases hc with rfl | rfl | rfl <;> decide)
  rw [Cursor.takeBreak?, rest]
  rcases hc with rfl | rfl | rfl <;> simp [isBreak, step]

/-! ## Pens at the same place -/

/-- Pens that differ at most in what they know about blanks before them. -/
def Same (p q : Pen) : Prop := p.reversed = q.reversed ∧ p.column = q.column

theorem Same.cursor (h : p.Same q) : p.cursor text = q.cursor text := by
  rw [Pen.cursor, Pen.cursor, h.1, h.2]

theorem Same.within (h : p.Same q) : p.Within text ↔ q.Within text := by
  rw [Within, Within, h.1]

theorem Same.write (h : p.Same q) (s : List Char) : (p.write s).Same (q.write s) := by
  simp only [Same, Pen.write, h.1, h.2, and_self]

theorem Same.trans (h : p.Same q) (h' : q.Same r) : p.Same r := ⟨h.1.trans h'.1, h.2.trans h'.2⟩

theorem Same.symm (h : p.Same q) : q.Same p := ⟨h.1.symm, h.2.symm⟩

theorem Same.onward (h : p.Same q) : p.Onward q := by
  unfold Onward
  exact h.1 ▸ List.suffix_refl _

/-! ## New lines -/

/-- The pen at a column of a new line. -/
def lineAt (p : Pen) (column : Nat) : Pen :=
  (p.breakLine '\n').write (List.replicate column ' ')

theorem indentTo_fresh (p : Pen) (c : Char) (column : Nat) :
    (p.breakLine c).indentTo column = (p.breakLine c).write (List.replicate column ' ') := by
  cases column <;> simp [indentTo, breakLine, write]

theorem indentTo_lines (p : Pen) {bs : List Char} (h : bs ≠ []) (column : Nat) :
    (bs.foldl breakLine p).indentTo column =
      (bs.foldl breakLine p).write (List.replicate column ' ') := by
  rw [← List.dropLast_concat_getLast h, List.foldl_append]
  exact indentTo_fresh _ _ column

/-- A new line is begun where something stands before the pen or the pen is past the column. -/
theorem indentTo_break {column : Nat} (h : p.indented = false ∨ column < p.column) :
    p.indentTo column = p.lineAt column := by
  have goes : (!p.indented || decide (column < p.column) ||
      (p.column == column && !p.afterBlank)) = true := by
    rcases h with h | h <;> simp [h]
  simp only [indentTo, goes, if_true]
  cases column <;> simp [lineAt, breakLine, write]

/-- The column after the next is reached by a space. -/
theorem indentTo_next (hi : p.indented = true) (hb : p.afterBlank = false) :
    p.indentTo (p.column + 1) = { p.write [' '] with afterBlank := true } := by
  have stays : ¬ p.column + 1 < p.column := by omega
  simp [indentTo, hi, hb, stays]

theorem Same.lineAt (h : p.Same q) (n : Nat) : (p.lineAt n).Same (q.lineAt n) := by
  have line : (p.breakLine '\n').Same (q.breakLine '\n') := ⟨congrArg (List.cons '\n') h.1, rfl⟩
  exact line.write _

theorem column_lineAt (p : Pen) (n : Nat) : ((p.lineAt n).cursor text).column = n := by
  simp [Pen.cursor, Pen.lineAt, Pen.breakLine, Pen.write]

theorem onward_lineAt (p : Pen) (n : Nat) : p.Onward (p.lineAt n) :=
  (onward_breakLine p '\n').trans (onward_write _ _)

theorem line_lineAt (p : Pen) (n : Nat) : (p.cursor text).line < ((p.lineAt n).cursor text).line := by
  have spaces : (List.replicate n ' ').countP isBreak = 0 :=
    List.countP_eq_zero.mpr fun c hc => by
      rw [List.eq_of_mem_replicate hc]
      decide
  simp [Pen.cursor, Pen.lineAt, Pen.breakLine, Pen.write, List.countP_append, spaces, isBreak]

theorem flat_spaces (n : Nat) : ∀ c ∈ List.replicate n ' ', isFlat c = true := by
  intro c hc
  rw [List.eq_of_mem_replicate hc]
  rfl

end Pen
end Neogrammar.Yaml
