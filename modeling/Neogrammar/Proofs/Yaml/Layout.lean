import Neogrammar.Proofs.Datum.Plain
import Neogrammar.Proofs.Yaml.Scalars

/-!
# What a pen writes

All that is written goes on from what was written before and consists of characters that need no
escape, whatever the texts. Going to a column leaves the pen on an indented line, and a value leaves
it on a line that is begun. A key that stands before its colon stays on one line.
-/
namespace Neogrammar.Yaml

/-! ## Characters that are written -/

namespace Pen

/-- What `q` wrote after `p` holds no character that needs an escape. -/
def Prints (p q : Pen) : Prop :=
  ∃ w, q.reversed = w ++ p.reversed ∧ ∀ c ∈ w, isSpecial c = false

variable {p q r : Pen}

theorem Prints.refl (p : Pen) : p.Prints p := ⟨[], rfl, by simp⟩

theorem Prints.trans (h : p.Prints q) (h' : q.Prints r) : p.Prints r := by
  obtain ⟨w, hw, each⟩ := h
  obtain ⟨w', hw', each'⟩ := h'
  refine ⟨w' ++ w, by rw [hw', hw, List.append_assoc], fun c hc => ?_⟩
  exact (List.mem_append.mp hc).elim (each' c) (each c)

theorem Prints.onward (h : p.Prints q) : p.Onward q := by
  obtain ⟨w, hw, -⟩ := h
  exact ⟨w, hw.symm⟩

/-- Two pens that wrote the same are the same here. -/
theorem Prints.of_reversed (h : p.Prints q) (same : r.reversed = q.reversed) : p.Prints r := by
  rwa [Prints, same]

theorem prints_write (p : Pen) {s : List Char} (h : ∀ c ∈ s, isSpecial c = false) :
    p.Prints (p.write s) :=
  ⟨s.reverse, rfl, fun c hc => h c (List.mem_reverse.mp hc)⟩

theorem prints_spaces (p : Pen) (n : Nat) : p.Prints (p.write (List.replicate n ' ')) := by
  refine prints_write p fun c hc => ?_
  rw [List.eq_of_mem_replicate hc]
  rfl

theorem prints_breakLine (p : Pen) {c : Char} (h : isSpecial c = false) :
    p.Prints (p.breakLine c) :=
  ⟨[c], rfl, by simpa using h⟩

theorem prints_breakLines (p : Pen) {s : List Char} (h : ∀ c ∈ s, isSpecial c = false) :
    p.Prints (s.foldl breakLine p) := by
  induction s generalizing p with
  | nil => exact .refl p
  | cons c s ih =>
    obtain ⟨hc, hs⟩ := List.forall_mem_cons.mp h
    exact (prints_breakLine p hc).trans (ih _ hs)

theorem prints_writeBreaks (p : Pen) {s : List Char} (h : ∀ c ∈ s, isSpecial c = false) :
    p.Prints (writeBreaks p s) := by
  unfold writeBreaks
  dsimp only
  split
  · exact (prints_breakLine p rfl).trans (prints_breakLines _ h)
  · exact prints_breakLines p h

theorem prints_indentTo (p : Pen) (column : Nat) : p.Prints (p.indentTo column) := by
  have reach (r : Pen) : r.Prints (if r.column < column
      then { r.write (List.replicate (column - r.column) ' ') with afterBlank := true } else r) := by
    split
    · exact (prints_spaces r _).of_reversed rfl
    · exact .refl r
  unfold indentTo
  dsimp only
  split
  · exact (prints_breakLine p rfl).trans (reach _)
  · exact reach p

theorem prints_foldTo (p : Pen) (column : Nat) : p.Prints (p.foldTo column) :=
  (prints_indentTo p column).of_reversed rfl

theorem prints_sign (p : Pen) {s : List Char} (h : ∀ c ∈ s, isSpecial c = false)
    (apart opensItem : Bool) : p.Prints (p.sign s apart opensItem) := by
  refine (prints_write p (s := if p.afterBlank || !apart then s else ' ' :: s) ?_).of_reversed rfl
  split
  · exact h
  · exact List.forall_mem_cons.mpr ⟨rfl, h⟩

theorem prints_opening (p : Pen) {s : List Char} (h : ∀ c ∈ s, isSpecial c = false)
    (opensItem : Bool) : p.gap.Prints (p.sign s true opensItem) :=
  (prints_write p.gap h).of_reversed (p.sign_same s opensItem).1

theorem prints_gap (p : Pen) : p.Prints p.gap := by
  unfold gap
  split
  · exact .refl p
  · exact prints_spaces p 1

/-! ## Places that are gone to -/

theorem column_indentTo (p : Pen) (column : Nat) : (p.indentTo column).column = column := by
  simp only [indentTo, breakLine, write]
  split_ifs <;> simp_all
  omega

theorem afterBlank_indentTo (p : Pen) (column : Nat) : (p.indentTo column).afterBlank = true := by
  simp only [indentTo, breakLine, write]
  split_ifs with goes
  · rfl
  · rfl
  · rfl
  · simp only [Bool.or_eq_true, Bool.and_eq_true, decide_eq_true_eq, beq_iff_eq,
      Bool.not_eq_true', not_or, not_and] at goes
    exact Bool.of_not_eq_false (goes.2 (by omega))

theorem indented_indentTo (p : Pen) (column : Nat) : (p.indentTo column).indented = true := by
  simp only [indentTo, breakLine, write]
  split_ifs <;> simp_all

end Pen

/-! ## Texts -/

/-- The characters of a piece. -/
def Piece.chars : Piece → List Char
  | .spaces n => List.replicate n ' '
  | .breaks s => s
  | .quote => ['\'']
  | .word s => s

theorem chars_addPiece (c : Char) (ps : List Piece) :
    (addPiece c ps).flatMap Piece.chars = c :: ps.flatMap Piece.chars := by
  have fresh : (addPiece.addFresh c ps).flatMap Piece.chars = c :: ps.flatMap Piece.chars := by
    unfold addPiece.addFresh
    split_ifs <;> simp_all [Piece.chars]
  unfold addPiece
  split
  · split_ifs
    · simp_all [Piece.chars, List.replicate_succ]
    · exact fresh
  · split_ifs
    · simp [Piece.chars]
    · exact fresh
  · split_ifs
    · exact fresh
    · simp [Piece.chars]
  · exact fresh

/-- The pieces of a text hold all its characters in order. -/
theorem chars_pieces (s : List Char) : (pieces s).flatMap Piece.chars = s := by
  induction s with
  | nil => rfl
  | cons c s ih => rw [pieces_cons, chars_addPiece, ih]

section Texts

variable {column : Nat} {mayFold : Bool} {s : List Char}

theorem prints_plainPieces {ps : List Piece}
    (h : ∀ c ∈ ps.flatMap Piece.chars, isSpecial c = false) (p : Pen) :
    p.Prints (ps.foldl (writePlainPiece column mayFold) p) := by
  induction ps generalizing p with
  | nil => exact .refl p
  | cons piece ps ih =>
    rw [List.flatMap_cons, List.forall_mem_append] at h
    refine Pen.Prints.trans ?_ (ih h.2 _)
    cases piece with
    | spaces n =>
      dsimp only [writePlainPiece]
      split
      · exact p.prints_foldTo column
      · exact p.prints_spaces n
    | breaks s => exact (p.prints_writeBreaks h.1).trans (Pen.prints_foldTo _ column)
    | quote => exact p.prints_write h.1
    | word s => exact p.prints_write h.1

theorem prints_singlePieces {ps : List Piece}
    (h : ∀ c ∈ ps.flatMap Piece.chars, isSpecial c = false) (first : Bool) (p : Pen) :
    p.Prints (writeSinglePieces column mayFold first p ps) := by
  induction ps generalizing first p with
  | nil => exact .refl p
  | cons piece ps ih =>
    rw [List.flatMap_cons, List.forall_mem_append] at h
    cases piece with
    | spaces n =>
      rw [writeSinglePieces]
      split
      · exact (p.prints_indentTo column).trans (ih h.2 _ _)
      · exact (p.prints_spaces n).trans (ih h.2 _ _)
    | breaks s =>
      exact ((p.prints_writeBreaks h.1).trans (Pen.prints_indentTo _ column)).trans (ih h.2 _ _)
    | quote => exact (p.prints_write (s := ['\'', '\'']) (by simp [isSpecial])).trans (ih h.2 _ _)
    | word s => exact (p.prints_write h.1).trans (ih h.2 _ _)

theorem special_raised (width n : Nat) :
    ∀ c ∈ raised (Text.hexDigits width n), isSpecial c = false := by
  have digit : ∀ n < 16, isSpecial (Char.ofNat (Text.asciiUpper (Text.hexDigit n).toNat)) = false := by
    decide
  induction width generalizing n with
  | zero => simp [raised, Text.hexDigits]
  | succ width ih =>
    rw [raised, Text.hexDigits, List.map_append, List.forall_mem_append]
    exact ⟨ih (n / 16), by simpa using digit (n % 16) (Nat.mod_lt n (by decide))⟩

theorem special_escape (ch : Char) : ∀ c ∈ escape ch, isSpecial c = false := by
  unfold escape
  split
  · next e he =>
    have : isSpecial e = false := by
      unfold shortEscape? at he
      split at he <;> cases he <;> rfl
    simpa using ⟨rfl, this⟩
  · dsimp only
    split_ifs <;> exact List.forall_mem_cons.mpr ⟨rfl, List.forall_mem_cons.mpr
      ⟨rfl, special_raised _ _⟩⟩

theorem special_of_isBare {c : Char} (h : isBare c = true) : isSpecial c = false := by
  simp only [isBare, Bool.and_eq_true, Bool.or_eq_true, decide_eq_true_eq, bne_iff_ne] at h
  simp only [isSpecial, Bool.not_eq_false', Bool.or_eq_true, Bool.and_eq_true, decide_eq_true_eq,
    bne_iff_ne, beq_iff_eq]
  omega

theorem prints_foldDouble (p : Pen) (next : Option Char) : p.Prints (foldDouble column p next) := by
  have slash (q : Pen) : q.Prints (q.write ['\\']) := q.prints_write (by simp [isSpecial])
  have fold : p.Prints ((p.write ['\\']).foldTo column) :=
    (slash p).trans (Pen.prints_foldTo _ column)
  unfold foldDouble
  dsimp only
  split
  · exact fold.trans (slash _)
  · exact fold

theorem prints_doubleChars (p : Pen) (inside : Bool) {pending : List Char}
    (bare : ∀ c ∈ pending, isSpecial c = false) (s : List Char) :
    p.Prints (writeDoubleChars column mayFold inside pending p s) := by
  have pends (pending : List Char) (bare : ∀ c ∈ pending, isSpecial c = false) (p : Pen) :
      p.Prints (p.write pending.reverse) :=
    p.prints_write fun c hc => bare c (List.mem_reverse.mp hc)
  induction s generalizing p inside pending with
  | nil => exact pends pending bare p
  | cons ch s ih =>
    have written := (pends pending bare p).trans (Pen.prints_write _ (special_escape ch))
    rcases @doubleChars_cons column mayFold inside p pending ch s with
      ⟨hb, -, hw⟩ | ⟨hb, hw⟩ | ⟨-, hw⟩ | hw <;> rw [hw]
    · exact ((pends pending bare p).trans (prints_foldDouble _ _)).trans
        (ih _ _ (by simpa using special_of_isBare hb))
    · exact ih _ _ (List.forall_mem_cons.mpr ⟨special_of_isBare hb, bare⟩)
    · exact (written.trans (prints_foldDouble _ _)).trans (ih _ _ (by simp))
    · exact written.trans (ih _ _ (by simp))

theorem prints_writeText (column : Nat) (isKey : Bool) (p : Pen) (s : List Char) :
    p.gap.Prints (writeText column isKey p s) := by
  have bare (h : needsEscapes s = false) :
      ∀ c ∈ (pieces s).flatMap Piece.chars, isSpecial c = false := by
    simp only [needsEscapes, Bool.or_eq_false_iff, List.any_eq_false, Bool.not_eq_true] at h
    rw [chars_pieces]
    exact h.1.1
  have opening (ch : Char) (hc : isSpecial ch = false) : p.gap.Prints (p.sign [ch] true false) :=
    p.prints_opening (by simpa using hc) false
  have closing (ch : Char) (hc : isSpecial ch = false) (q : Pen) :
      q.Prints (q.sign [ch] false false) :=
    q.prints_sign (by simpa using hc) false false
  obtain ⟨plain, h⟩ | ⟨-, single, h⟩ | ⟨-, h⟩ := writeText_cases column isKey p s <;> rw [h]
  · rw [writePlain_eq (worded_of_isPlain plain).ne_nil]
    simp only [isPlain, Bool.and_eq_true, Bool.not_eq_true'] at plain
    exact prints_plainPieces (bare plain.1.1.1.2) { p.gap with afterBlank := false, indented := false }
  · exact ((opening '\'' rfl).trans (prints_singlePieces (bare single) _ _)).trans (closing '\'' rfl _)
  · exact ((opening '"' rfl).trans (prints_doubleChars _ _ (by simp) s)).trans (closing '"' rfl _)

/-! ## Keys of one line -/

theorem plainPieces_line {ps : List Piece} (h : ∀ bs, .breaks bs ∉ ps) (p : Pen) :
    ps.foldl (writePlainPiece column false) p = p.write (ps.flatMap Piece.chars) := by
  induction ps generalizing p with
  | nil => rfl
  | cons piece ps ih =>
    have first : writePlainPiece column false p piece = p.write piece.chars := by
      cases piece with
      | spaces n => simp [writePlainPiece, Piece.chars]
      | breaks s => exact absurd List.mem_cons_self (h s)
      | quote => rfl
      | word s => rfl
    rw [List.foldl_cons, first, ih fun bs hb => h bs (List.mem_cons_of_mem _ hb),
      ← Pen.write_append, List.flatMap_cons]

/-- What is written for a piece between single quotes. -/
def Piece.quoted : Piece → List Char
  | .quote => ['\'', '\'']
  | piece => piece.chars

theorem mem_quoted {piece : Piece} {c : Char} (h : c ∈ piece.quoted) : c ∈ piece.chars := by
  cases piece with
  | quote => simpa [Piece.quoted, Piece.chars] using h
  | spaces | breaks | word => exact h

theorem length_quoted (ps : List Piece) :
    (ps.flatMap Piece.quoted).length ≤ 2 * (ps.flatMap Piece.chars).length := by
  induction ps with
  | nil => exact Nat.le_refl 0
  | cons piece ps ih =>
    have first : piece.quoted.length ≤ 2 * piece.chars.length := by
      cases piece with
      | quote => exact Nat.le_refl 2
      | spaces | breaks | word => exact Nat.le_mul_of_pos_left _ Nat.two_pos
    simp only [List.flatMap_cons, List.length_append]
    omega

theorem singlePieces_line {ps : List Piece} (h : ∀ bs, .breaks bs ∉ ps) (first : Bool) (p : Pen) :
    writeSinglePieces column false first p ps = p.write (ps.flatMap Piece.quoted) := by
  induction ps generalizing first p with
  | nil => rfl
  | cons piece ps ih =>
    have step : writeSinglePieces column false first p (piece :: ps) =
        writeSinglePieces column false false (p.write piece.quoted) ps := by
      cases piece with
      | spaces n => simp [writeSinglePieces, Piece.quoted, Piece.chars]
      | breaks s => exact absurd List.mem_cons_self (h s)
      | quote | word => rfl
    rw [step, ih fun bs hb => h bs (List.mem_cons_of_mem _ hb), ← Pen.write_append,
      List.flatMap_cons]

/-- What is written for a character between double quotes. -/
def doubled (c : Char) : List Char := if isBare c then [c] else escape c

theorem doubleChars_line (inside : Bool) (pending : List Char) (p : Pen) (s : List Char) :
    writeDoubleChars column false inside pending p s =
      p.write (pending.reverse ++ s.flatMap doubled) := by
  induction s generalizing inside pending p with
  | nil => rw [writeDoubleChars, List.flatMap_nil, List.append_nil]
  | cons c s ih =>
    by_cases bare : isBare c = true
    · simp [writeDoubleChars, bare, ih, doubled]
    · simp [writeDoubleChars, bare, ih, doubled, Pen.write_append]

theorem length_doubled (c : Char) : (doubled c).length ≤ 10 := by
  unfold doubled escape
  split_ifs
  · exact Nat.le_add_left 1 9
  · split
    · exact Nat.le_add_left 2 8
    · dsimp only
      split_ifs <;> simp [raised, Text.length_hexDigits]

theorem length_flatMap_doubled (s : List Char) : (s.flatMap doubled).length ≤ 10 * s.length := by
  induction s with
  | nil => exact Nat.le_refl 0
  | cons c s ih =>
    have first := length_doubled c
    simp only [List.flatMap_cons, List.length_append, List.length_cons]
    omega

theorem not_break_doubled (c : Char) : ∀ d ∈ doubled c, isBreak d = false := by
  have flat {d : Char} (h : isFlat d = true) : isBreak d = false := by
    simp only [isFlat, Bool.and_eq_true, Bool.not_eq_true'] at h
    exact h.1
  unfold doubled
  split
  · next bare =>
    intro d hd
    obtain rfl := List.mem_singleton.mp hd
    by_cases space : d = ' '
    · rw [space]
      rfl
    · exact flat (Bool.and_eq_true_iff.mp (isSolid_of_isBare bare space).1).2
  · intro d hd
    obtain ⟨e, written, -, he⟩ | ⟨letter, width, written, -, -, -, he⟩ := escape_eq c
    · rw [written, List.mem_cons, List.mem_singleton] at hd
      rcases hd with rfl | rfl
      · rfl
      · exact flat he
    · rw [written, List.mem_cons, List.mem_cons] at hd
      rcases hd with rfl | rfl | hd
      · rfl
      · exact flat he
      · exact flat (flat_raised _ _ d hd)

end Texts

theorem isBreak_of_bare {c : Char} (special : isSpecial c = false) (lineEnd : isLineEnd c = false) :
    isBreak c = false := by
  by_cases space : c = ' '
  · rw [space]
    rfl
  · have solid := isSolid_of_not_isSpecial special lineEnd space
    simp only [isSolid, isFlat, Bool.and_eq_true, Bool.not_eq_true'] at solid
    exact solid.2.1

theorem breaks_of_mem_addPiece {c : Char} (hc : isLineEnd c = false) {bs : List Char}
    {ps : List Piece} (h : .breaks bs ∈ addPiece c ps) : .breaks bs ∈ ps := by
  unfold addPiece addPiece.addFresh at h
  split at h <;> split_ifs at h <;> simp_all

theorem no_breaks {s : List Char} (h : s.any isLineEnd = false) (bs : List Char) :
    .breaks bs ∉ pieces s := by
  induction s with
  | nil => exact List.not_mem_nil
  | cons c s ih =>
    rw [List.any_cons, Bool.or_eq_false_iff] at h
    exact fun hb => ih h.2 (breaks_of_mem_addPiece h.1 hb)

/-- A key without breaks is written on one line, and not much longer than it is. -/
theorem writeText_line (column : Nat) (p : Pen) {s : List Char} (h : s.any isLineEnd = false) :
    ∃ w, (writeText column true p s).Same (p.gap.write w) ∧ (∀ c ∈ w, isBreak c = false) ∧
      0 < w.length ∧ w.length ≤ 10 * s.length + 2 := by
  have bare (escapes : needsEscapes s = false) : ∀ c ∈ s, isBreak c = false := by
    simp only [needsEscapes, Bool.or_eq_false_iff, List.any_eq_false, Bool.not_eq_true] at escapes h
    exact fun c hc => isBreak_of_bare (escapes.1.1 c hc) (h c hc)
  have closed {quote : Char} {v : List Char} {q : Pen}
      (written : q = (p.sign [quote] true false).write v) :
      (q.sign [quote] false false).Same (p.gap.write (quote :: (v ++ [quote]))) := by
    have opened := (Pen.sign_same p [quote] false).write (v ++ [quote])
    rw [← Pen.write_append, Pen.write_append _ v] at opened
    exact (q.close_same [quote] false).trans (written ▸ opened)
  have flat {quote : Char} {v : List Char} (hq : isBreak quote = false)
      (hv : ∀ c ∈ v, isBreak c = false) : ∀ c ∈ quote :: (v ++ [quote]), isBreak c = false := by
    rw [List.forall_mem_cons, List.forall_mem_append]
    exact ⟨hq, hv, by simpa using hq⟩
  obtain ⟨plain, h'⟩ | ⟨-, single, h'⟩ | ⟨-, h'⟩ := writeText_cases column true p s <;> rw [h']
  · have escapes : needsEscapes s = false := by
      simp only [isPlain, Bool.and_eq_true, Bool.not_eq_true'] at plain
      exact plain.1.1.1.2
    have filled := (worded_of_isPlain plain).ne_nil
    refine ⟨s, ?_, bare escapes, List.length_pos_iff.mpr filled, by omega⟩
    rw [writePlain_eq filled]
    rw [Bool.not_true, plainPieces_line (no_breaks h), chars_pieces]
    exact ⟨rfl, rfl⟩
  · refine ⟨_, closed (singlePieces_line (no_breaks h) _ _), ?_, Nat.succ_pos _, ?_⟩
    · refine flat rfl fun c hc => bare single c ?_
      obtain ⟨piece, hp, hc⟩ := List.mem_flatMap.mp hc
      rw [← chars_pieces s]
      exact List.mem_flatMap.mpr ⟨piece, hp, mem_quoted hc⟩
    · have := length_quoted (pieces s)
      rw [chars_pieces] at this
      simp only [List.length_cons, List.length_append, List.length_nil]
      omega
  · refine ⟨_, closed (doubleChars_line _ _ _ _), ?_, Nat.succ_pos _, ?_⟩
    · refine flat rfl fun c hc => ?_
      rw [List.reverse_nil, List.nil_append] at hc
      obtain ⟨d, -, hc⟩ := List.mem_flatMap.mp hc
      exact not_break_doubled d c hc
    · have := length_flatMap_doubled s
      simp only [List.length_cons, List.length_append, List.length_nil, List.reverse_nil]
      omega

/-! ## Words -/

theorem isWord_null : IsWord "null".toList :=
  ⟨by decide, by simp [isSolid, isBlank, isFlat, isBreak], by decide, by decide⟩

theorem special_null : ∀ c ∈ "null".toList, isSpecial c = false := by simp [isSpecial]

theorem digit_bounds {c : Char} (h : c.isDigit = true) : 48 ≤ c.toNat ∧ c.toNat ≤ 57 := by
  simp only [Char.isDigit, Bool.and_eq_true, decide_eq_true_eq] at h
  exact h

theorem special_of_isDigit {c : Char} (h : c.isDigit = true) : isSpecial c = false := by
  have := digit_bounds h
  simp only [isSpecial, Bool.not_eq_false', Bool.or_eq_true, Bool.and_eq_true, decide_eq_true_eq,
    bne_iff_ne, beq_iff_eq]
  omega

/-- The characters of a whole number. -/
theorem special_intText (n : Int) : ∀ c ∈ (Text.intText n).toList, isSpecial c = false := by
  obtain ⟨d, ds, digits, written | written⟩ := Json.intText_eq n <;> rw [written]
  · exact fun c hc => special_of_isDigit (digits c hc)
  · exact List.forall_mem_cons.mpr ⟨rfl, fun c hc => special_of_isDigit (digits c hc)⟩

theorem isWord_intText (n : Int) : IsWord (Text.intText n).toList := by
  obtain ⟨d, ds, digits, text⟩ := Json.intText_eq n
  have other {c e : Char} (hc : c ∈ d :: ds) (he : e.isDigit = false) : c ≠ e := by
    rintro rfl
    simp [digits c hc] at he
  have solid : ∀ c ∈ d :: ds, isSolid c = true := fun c hc => by
    refine isSolid_of_not_isSpecial (special_of_isDigit (digits c hc)) ?_ (other hc rfl)
    simp [isLineEnd, other hc (e := '\n') rfl, other hc (e := '\x85') rfl,
      other hc (e := '\u2028') rfl, other hc (e := '\u2029') rfl]
  have last : (d :: ds).getLast? ≠ some ':' := fun h =>
    other (List.mem_of_getLast? h) rfl rfl
  rcases text with text | text <;> rw [text]
  · refine ⟨List.cons_ne_nil _ _, solid, ?_, last⟩
    simpa using other List.mem_cons_self (e := '#') rfl
  · refine ⟨List.cons_ne_nil _ _, List.forall_mem_cons.mpr ⟨rfl, solid⟩, by simp, ?_⟩
    rwa [List.getLast?_cons_cons]

theorem holdsSign_eq_false {s : List Char} (h : ∀ c ∈ s, c ≠ ':' ∧ c ≠ '#') (before : Char) :
    holdsSign before s = false := by
  induction s generalizing before with
  | nil => rfl
  | cons c s ih =>
    obtain ⟨⟨colon, hash⟩, hs⟩ := List.forall_mem_cons.mp h
    simp [holdsSign, colon, hash, ih hs]

theorem opensSign_digit {c : Char} (h : c.isDigit = true) (next : Option Char) :
    opensSign c next = false := by
  have other {e : Char} (he : e.isDigit = false) : c ≠ e := by
    rintro rfl
    simp [h] at he
  have none : "#,[]\x7b\x7d&*!|>'\"%@\x60".toList.all (fun e => !e.isDigit) = true := by decide
  have signs : "#,[]\x7b\x7d&*!|>'\"%@\x60".toList.contains c = false := by
    rw [List.contains_eq_mem, decide_eq_false_iff_not]
    intro hc
    simpa [h] using List.all_eq_true.mp none c hc
  simp only [opensSign, signs, Bool.false_or]
  simp [other (e := '?') rfl, other (e := ':') rfl, other (e := '-') rfl]

/-- A whole number does not look like a sign. -/
theorem looksLikeSign_intText (n : Int) : looksLikeSign (Text.intText n).toList = false := by
  obtain ⟨d, ds, digits, text⟩ := Json.intText_eq n
  have other {c e : Char} (hc : c ∈ d :: ds) (he : e.isDigit = false) : c ≠ e := by
    rintro rfl
    simp [digits c hc] at he
  have holds {s : List Char} (hs : s ⊆ d :: ds) (before : Char) : holdsSign before s = false :=
    holdsSign_eq_false (fun c hc => ⟨other (hs hc) rfl, other (hs hc) rfl⟩) before
  have dash : '-' ≠ d := (other List.mem_cons_self rfl).symm
  have dot : '.' ≠ d := (other List.mem_cons_self rfl).symm
  rcases text with text | text <;> rw [text]
  · simp [looksLikeSign, List.isPrefixOf, dash, dot, holds (List.subset_cons_self d ds),
      opensSign_digit (digits d List.mem_cons_self)]
  · have apart : setsApart (some d) = false := by
      simp [setsApart, isLineEnd, other (c := d) List.mem_cons_self]
    simp [looksLikeSign, List.isPrefixOf, dash, holds (List.Subset.refl _), opensSign, apart]

theorem writePlain_word {column : Nat} {mayFold : Bool} {w : List Char} (h : IsWord w) (p : Pen) :
    writePlain column mayFold p w = { p.gap with afterBlank := false, indented := false }.write w := by
  have all := @plainPieces_word column mayFold w h.solid [] { p.gap with afterBlank := false, indented := false }
  rw [List.append_nil] at all
  rw [writePlain_eq h.pos, all]
  rfl

/-! ## First characters -/

variable {text : List Char} {p : Pen} {column : Nat}

theorem Cursor.starts_of_next {c : Cursor} {ch : Char} (next : c.next? = some ch)
    (h : ch ≠ ' ' ∧ isBreak ch = false ∧ ch ≠ '#') : c.Starts := by
  intro e he
  obtain rfl := Option.some.inj (next.symm.trans he)
  exact h

theorem starts_of_isSolid {c : Cursor} {ch : Char} (next : c.next? = some ch)
    (solid : isSolid ch = true) (hash : ch ≠ '#') : c.Starts := by
  simp only [isSolid, isFlat, isBlank, Bool.and_eq_true, Bool.not_eq_true', Bool.or_eq_false_iff,
    beq_eq_false_iff_ne] at solid
  exact c.starts_of_next next ⟨solid.1.1, solid.2.1, hash⟩

theorem sign_starts {ch : Char} {opensItem : Bool} (solid : isSolid ch = true) (hash : ch ≠ '#')
    (within : (p.sign [ch] true opensItem).Within text) : (p.gap.cursor text).Starts := by
  rw [(p.sign_same [ch] opensItem).within] at within
  exact starts_of_isSolid (Pen.next?_write within) solid hash

theorem worded_starts {mayFold : Bool} {s : List Char} (h : Worded s)
    (within : (writePlain column mayFold p s).Within text) : (p.gap.cursor text).Starts := by
  rw [writePlain_eq h.ne_nil] at within
  obtain ⟨ch, -, next, solid, hash⟩ := h.next? within
  exact starts_of_isSolid next solid hash

/-- A token starts where a text is written. -/
theorem text_starts {isKey : Bool} {s : List Char}
    (within : (writeText column isKey p s).Within text) : (p.gap.cursor text).Starts := by
  obtain ⟨plain, h⟩ | ⟨-, -, h⟩ | ⟨-, h⟩ := writeText_cases column isKey p s <;> rw [h] at within
  · exact worded_starts (worded_of_isPlain plain) within
  · exact sign_starts rfl (by decide) ((within.of_onward (Pen.onward_sign _ _ _ _)).of_onward
      (Pen.onward_singlePieces _ _ _))
  · have written := within.of_onward (Pen.onward_sign _ _ _ _)
    have start : (p.sign ['"'] true false).Within text :=
      written.of_onward (Pen.onward_doubleChars (p.sign ['"'] true false) false [] s)
    exact sign_starts rfl (by decide) start

/-! ## Values -/

/-- A value goes on from what was written, with characters that need no escape, and leaves the pen
on a line that is begun. -/
structure Pen.Puts (p q : Pen) : Prop where
  prints : p.Prints q
  begun : q.indented = false

theorem Pen.Puts.of_gap {q : Pen} (h : p.gap.Puts q) : p.Puts q :=
  ⟨p.prints_gap.trans h.prints, h.begun⟩

theorem puts_word {column : Nat} {mayFold : Bool} {w : List Char} (h : IsWord w)
    (special : ∀ c ∈ w, isSpecial c = false) (p : Pen) :
    p.gap.Puts (writePlain column mayFold p w) := by
  rw [writePlain_word h]
  exact ⟨Pen.prints_write _ special, rfl⟩

theorem indented_plainPieces {column : Nat} {mayFold : Bool} (ps : List Piece) {p : Pen}
    (h : p.indented = false) : (ps.foldl (writePlainPiece column mayFold) p).indented = false := by
  induction ps generalizing p with
  | nil => exact h
  | cons piece ps ih =>
    refine ih ?_
    cases piece with
    | spaces n =>
      dsimp only [writePlainPiece]
      split
      · rfl
      · exact h
    | breaks s => rfl
    | quote | word => exact h

theorem puts_text (column : Nat) (isKey : Bool) (p : Pen) (s : List Char) :
    p.gap.Puts (writeText column isKey p s) := by
  refine ⟨prints_writeText column isKey p s, ?_⟩
  obtain ⟨-, h⟩ | ⟨-, -, h⟩ | ⟨-, h⟩ := writeText_cases column isKey p s <;> rw [h]
  · exact indented_plainPieces _ rfl
  · exact Bool.and_false _
  · exact Bool.and_false _

theorem puts_empty {opening closing : Char} (ho : isSpecial opening = false)
    (hc : isSpecial closing = false) (p : Pen) : p.gap.Puts (writeEmpty p opening closing) :=
  ⟨(p.prints_opening (by simpa using ho) false).trans
    (Pen.prints_sign _ (by simpa using hc) false false), Bool.and_false _⟩

theorem gap_indentTo (p : Pen) (column : Nat) : (p.indentTo column).gap = p.indentTo column :=
  if_pos (p.afterBlank_indentTo column)

/-- The sign of an item, or of a key or value on its own line. -/
theorem prints_item (p : Pen) (column : Nat) {ch : Char} (h : isSpecial ch = false) :
    (p.indentTo column).Prints ((p.indentTo column).sign [ch] true true) :=
  Pen.prints_sign _ (by simpa using h) true true

variable {d : Datum} {n : Nat}

theorem puts_items {xs : List Datum} (h : ∀ x ∈ xs, ∀ column inMapping p,
      Pen.Puts p (writeValue column inMapping p x)) (filled : xs ≠ []) (column : Nat) (p : Pen) :
    (p.indentTo column).Puts (writeItems column p xs) := by
  induction xs generalizing p with
  | nil => exact absurd rfl filled
  | cons x xs ih =>
    obtain ⟨hx, hxs⟩ := List.forall_mem_cons.mp h
    obtain ⟨prints, begun⟩ := hx column false ((p.indentTo column).sign ['-'] true true)
    have first := (prints_item p column (show isSpecial '-' = false from rfl)).trans prints
    cases xs with
    | nil => exact ⟨first, begun⟩
    | cons y ys =>
      obtain ⟨prints', begun'⟩ := ih hxs (List.cons_ne_nil y ys) _
      exact ⟨(first.trans (Pen.prints_indentTo _ column)).trans prints', begun'⟩

/-- What is written before the value of a key. -/
def writeKey (column : Nat) (p : Pen) (k : Datum) : Pen :=
  if isSimpleKey k then (writeScalar column true (p.indentTo column) k).sign [':'] false false
  else ((writeValue column true ((p.indentTo column).sign ['?'] true true) k).indentTo column).sign
    [':'] true true

theorem writeEntries_cons (column : Nat) (p : Pen) (e : Datum × Datum) (es : List (Datum × Datum)) :
    writeEntries column p (e :: es) =
      writeEntries column (writeValue column true (writeKey column p e.1) e.2) es := rfl

theorem prints_writeKey (column : Nat) (p : Pen) (s : String) :
    (p.indentTo column).Prints (writeKey column p (.text s)) := by
  unfold writeKey
  split
  · have written := prints_writeText (column + 2) true (p.indentTo column) s.toList
    rw [gap_indentTo] at written
    exact written.trans (Pen.prints_sign _ (by simp [isSpecial]) false false)
  · have asked := prints_item p column (show isSpecial '?' = false from rfl)
    have written := asked.trans (puts_text (column + 2) false _ s.toList).of_gap.prints
    exact (written.trans (Pen.prints_indentTo _ column)).trans (prints_item _ column rfl)

theorem puts_entries {es : List (String × Datum)} (h : ∀ e ∈ es, ∀ column inMapping p,
      Pen.Puts p (writeValue column inMapping p e.2)) (filled : es ≠ []) (column : Nat) (p : Pen) :
    (p.indentTo column).Puts (writeEntries column p (es.map fun e => (.text e.1, e.2))) := by
  induction es generalizing p with
  | nil => exact absurd rfl filled
  | cons e es ih =>
    obtain ⟨he, hes⟩ := List.forall_mem_cons.mp h
    obtain ⟨prints, begun⟩ := he column true (writeKey column p (.text e.1))
    have first := (prints_writeKey column p e.1).trans prints
    rw [List.map_cons, writeEntries_cons]
    cases es with
    | nil => exact ⟨first, begun⟩
    | cons e' es' =>
      obtain ⟨prints', begun'⟩ := ih hes (List.cons_ne_nil e' es') _
      exact ⟨(first.trans (Pen.prints_indentTo _ column)).trans prints', begun'⟩

theorem Pen.Puts.of_indentTo {q : Pen} (h : (p.indentTo column).Puts q) : p.Puts q :=
  ⟨(p.prints_indentTo column).trans h.prints, h.begun⟩

theorem puts_value (h : d.Plain n) (column : Nat) (inMapping : Bool) (p : Pen) :
    p.Puts (writeValue column inMapping p d) := by
  induction h generalizing column inMapping p with
  | null => exact (@puts_word (column + 2) true _ isWord_null special_null p).of_gap
  | int k => exact (@puts_word (column + 2) true _ (isWord_intText k) (special_intText k) p).of_gap
  | text s => exact (puts_text (column + 2) false p s.toList).of_gap
  | @list n xs items ih =>
    cases xs with
    | nil => exact (puts_empty rfl rfl p).of_gap
    | cons x xs =>
      exact (puts_items (fun y hy column inMapping p => ih y hy column inMapping p)
        (List.cons_ne_nil x xs) _ p).of_indentTo
  | @record n es keys short values ih =>
    cases es with
    | nil => exact (puts_empty rfl rfl p).of_gap
    | cons e es =>
      exact (puts_entries (fun y hy column inMapping p => ih y hy column inMapping p)
        (List.cons_ne_nil e es) _ p).of_indentTo

theorem puts_plainItems {xs : List Datum} (h : ∀ x ∈ xs, x.Plain n) (filled : xs ≠ [])
    (column : Nat) (p : Pen) : (p.indentTo column).Puts (writeItems column p xs) :=
  puts_items (fun x hx column inMapping p => puts_value (h x hx) column inMapping p) filled column p

theorem puts_plainEntries {es : List (String × Datum)} (h : ∀ e ∈ es, e.2.Plain n) (filled : es ≠ [])
    (column : Nat) (p : Pen) :
    (p.indentTo column).Puts (writeEntries column p (es.map fun e => (.text e.1, e.2))) :=
  puts_entries (fun e he column inMapping p => puts_value (h e he) column inMapping p) filled column p

theorem onward_items {xs : List Datum} (h : ∀ x ∈ xs, x.Plain n) (column : Nat) (p : Pen) :
    p.Onward (writeItems column p xs) := by
  cases xs with
  | nil => exact .refl p
  | cons x xs =>
    exact (puts_plainItems h (List.cons_ne_nil x xs) column p).of_indentTo.prints.onward

theorem onward_entries {es : List (String × Datum)} (h : ∀ e ∈ es, e.2.Plain n)
    (column : Nat) (p : Pen) :
    p.Onward (writeEntries column p (es.map fun e => (.text e.1, e.2))) := by
  cases es with
  | nil => exact .refl p
  | cons e es =>
    exact (puts_plainEntries h (List.cons_ne_nil e es) column p).of_indentTo.prints.onward

/-! ## First characters of items and entries -/

theorem item_starts {ch : Char} (solid : isSolid ch = true) (hash : ch ≠ '#')
    (within : ((p.indentTo column).sign [ch] true true).Within text) :
    ((p.indentTo column).cursor text).Starts := by
  have starts := sign_starts solid hash within
  rwa [gap_indentTo] at starts

theorem items_starts {xs : List Datum} (h : ∀ x ∈ xs, x.Plain n) (filled : xs ≠ [])
    (within : (writeItems column p xs).Within text) : ((p.indentTo column).cursor text).Starts := by
  obtain ⟨x, xs, rfl⟩ := List.exists_cons_of_ne_nil filled
  obtain ⟨hx, hxs⟩ := List.forall_mem_cons.mp h
  have value := within.of_onward (onward_items hxs column _)
  exact item_starts (show isSolid '-' = true from rfl) (by decide)
    (value.of_onward (puts_value hx column false _).prints.onward)

theorem key_starts {s : String} (within : (writeKey column p (.text s)).Within text) :
    ((p.indentTo column).cursor text).Starts := by
  unfold writeKey at within
  split at within
  · have starts := text_starts (within.of_onward (Pen.onward_sign _ _ _ _))
    rwa [gap_indentTo] at starts
  · have value := (within.of_onward (Pen.onward_sign _ _ _ _)).of_onward (Pen.onward_indentTo _ _)
    exact item_starts (show isSolid '?' = true from rfl) (by decide)
      (value.of_onward (puts_text (column + 2) false _ s.toList).of_gap.prints.onward)

theorem entries_starts {es : List (String × Datum)} (h : ∀ e ∈ es, e.2.Plain n) (filled : es ≠ [])
    (within : (writeEntries column p (es.map fun e => (.text e.1, e.2))).Within text) :
    ((p.indentTo column).cursor text).Starts := by
  obtain ⟨e, es, rfl⟩ := List.exists_cons_of_ne_nil filled
  obtain ⟨he, hes⟩ := List.forall_mem_cons.mp h
  rw [List.map_cons, writeEntries_cons] at within
  have value := within.of_onward (onward_entries hes column _)
  exact key_starts (value.of_onward (puts_value he column true _).prints.onward)

end Neogrammar.Yaml
