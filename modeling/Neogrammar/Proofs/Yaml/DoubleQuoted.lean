import Mathlib.Algebra.Group.Nat.Defs
import Neogrammar.Proofs.Json.ReadBack
import Neogrammar.Proofs.Yaml.Quoted

/-!
# Texts in double quotes

Any text in double quotes is read back. Characters stand for themselves or are escaped, and a line
is folded after a backslash; where a space comes first on the next line, a backslash keeps it.
-/
namespace Neogrammar.Yaml

variable {text : List Char} {column : Nat} {mayFold inside : Bool} {p q : Pen}
  {c d last : Cursor} {s : List Char}

/-! ## Escapes -/

theorem escaped?_shortEscape {ch e : Char} (h : shortEscape? ch = some e) :
    escaped? e = some ch ∧ isFlat e = true := by
  unfold shortEscape? at h
  split at h <;> cases h <;> exact ⟨rfl, rfl⟩

theorem readEscape_short {ch e : Char} (h : c.Goes [e] d) (he : escaped? e = some ch) :
    readEscape c = .ok ([ch], d) := by
  have step : c.step = d := h.2
  simp only [readEscape, h.next?, he, step]

theorem hexValue?_raised :
    ∀ n < 16, Json.hexValue? (Char.ofNat (Text.asciiUpper (Text.hexDigit n).toNat)) = some n ∧
      isFlat (Char.ofNat (Text.asciiUpper (Text.hexDigit n).toNat)) = true := by
  decide

theorem mapM_raised (width n : Nat) :
    ∃ ds, (raised (Text.hexDigits width n)).mapM Json.hexValue? = some ds ∧ ds.length = width ∧
      Text.ofDigits 16 ds = n % 16 ^ width := by
  induction width generalizing n with
  | zero => exact ⟨[], rfl, rfl, by simp [Text.ofDigits, Nat.mod_one]⟩
  | succ width ih =>
    obtain ⟨ds, read, length, value⟩ := ih (n / 16)
    have digit := (hexValue?_raised (n % 16) (Nat.mod_lt n (by decide))).1
    refine ⟨ds ++ [n % 16], ?_, by simp [length], ?_⟩
    · simp only [raised, Text.hexDigits, List.map_append, List.mapM_append] at read ⊢
      rw [read]
      simp [digit]
    · simp only [Text.ofDigits, List.foldl_append, List.foldl_cons, List.foldl_nil] at value ⊢
      rw [value, Nat.pow_succ', Nat.mod_mul]
      omega

theorem flat_raised (width n : Nat) : ∀ ch ∈ raised (Text.hexDigits width n), isFlat ch = true := by
  induction width generalizing n with
  | zero => simp [raised, Text.hexDigits]
  | succ width ih =>
    intro ch hc
    rw [raised, Text.hexDigits, List.map_append] at hc
    rcases List.mem_append.mp hc with hc | hc
    · exact ih (n / 16) ch hc
    · rw [List.map_singleton, List.mem_singleton] at hc
      exact hc ▸ (hexValue?_raised (n % 16) (Nat.mod_lt n (by decide))).2

theorem hexNumeral?_raised {width n : Nat} (h : n < 16 ^ width) (rest : List Char) :
    hexNumeral? width (raised (Text.hexDigits width n) ++ rest) = some n := by
  obtain ⟨ds, read, length, value⟩ := mapM_raised width n
  have taken : (raised (Text.hexDigits width n) ++ rest).take width =
      raised (Text.hexDigits width n) :=
    List.take_left' (by rw [raised, List.length_map, Text.length_hexDigits])
  rw [hexNumeral?, taken, read]
  simp [length, value, Nat.mod_eq_of_lt h]

theorem characterOf_toNat (ch : Char) : characterOf ch.toNat = .ok ch := by
  have valid : ch.toNat < 0xD800 ∨ 0xDFFF < ch.toNat ∧ ch.toNat < 0x110000 := ch.valid
  have limit : Text.codeLimit = 0x80000000 := rfl
  rw [characterOf, limit, if_neg (by omega), if_neg (by omega), if_neg (by omega), Char.ofNat_toNat]

theorem readEscape_code {letter ch : Char} {width : Nat} (plain : escaped? letter = none)
    (wide : escapeWidth? letter = some width) (small : ch.toNat < 16 ^ width)
    (h : c.Goes (letter :: raised (Text.hexDigits width ch.toNat)) d) :
    readEscape c = .ok ([ch], d) := by
  have rest : c.step.rest = raised (Text.hexDigits width ch.toNat) ++ d.rest :=
    Cursor.rest_step h.1
  have place : c.step.advance width = d := by
    have := h.2
    rwa [List.length_cons, raised, List.length_map, Text.length_hexDigits] at this
  simp only [readEscape, h.next?, plain, wide, rest, hexNumeral?_raised small, characterOf_toNat,
    place]
  rfl

theorem escape_eq (ch : Char) :
    (∃ e, escape ch = ['\\', e] ∧ escaped? e = some ch ∧ isFlat e = true) ∨
      ∃ letter width, escape ch = '\\' :: letter :: raised (Text.hexDigits width ch.toNat) ∧
        escaped? letter = none ∧ escapeWidth? letter = some width ∧ ch.toNat < 16 ^ width ∧
        isFlat letter = true := by
  unfold escape
  split
  · next e he => exact .inl ⟨e, rfl, escaped?_shortEscape he⟩
  · right
    have valid : ch.toNat < 0xD800 ∨ 0xDFFF < ch.toNat ∧ ch.toNat < 0x110000 := ch.valid
    dsimp only
    split_ifs with h h
    · exact ⟨'x', 2, rfl, rfl, rfl, by omega, rfl⟩
    · exact ⟨'u', 4, rfl, rfl, rfl, by omega, rfl⟩
    · exact ⟨'U', 8, rfl, rfl, rfl, by omega, rfl⟩

/-- What is written for an escaped character is read as that character. -/
theorem readEscape_escape {ch : Char} (h : (p.write (escape ch)).Within text) :
    (p.write ['\\']).Within text ∧
      readEscape ((p.write ['\\']).cursor text) = .ok ([ch], (p.write (escape ch)).cursor text) := by
  rcases escape_eq ch with ⟨e, written, he, flat⟩ | ⟨letter, width, written, plain, wide, small, flat⟩
  · rw [written, Pen.write_cons p '\\' [e]] at h ⊢
    exact ⟨h.before_write, readEscape_short (Pen.goes_write h (by simpa using flat)) he⟩
  · rw [written, Pen.write_cons p '\\' (letter :: _)] at h ⊢
    refine ⟨h.before_write, readEscape_code plain wide small (Pen.goes_write h ?_)⟩
    exact List.forall_mem_cons.mpr ⟨flat, flat_raised width ch.toNat⟩

theorem Closes.after_escape {ch : Char} (within : (p.write (escape ch)).Within text)
    (h : Closes true ((p.write (escape ch)).cursor text) s last) :
    Closes true (p.cursor text) (ch :: s) last := by
  obtain ⟨start, read⟩ := readEscape_escape within
  have le : ((p.write (escape ch)).cursor text).rest.length ≤
      ((p.write ['\\']).cursor text).rest.length := by
    refine Pen.length_rest_onward ?_
    rcases escape_eq ch with ⟨e, written, -⟩ | ⟨letter, width, written, -⟩
    · rw [written, Pen.write_cons p '\\' [e]]
      exact Pen.onward_write _ _
    · rw [written, Pen.write_cons p '\\' (letter :: _)]
      exact Pen.onward_write _ _
  refine h.prepend (x := [ch]) (fun w after hw => ?_) (Pen.length_rest_onward (Pen.onward_write _ _))
  exact readsWord_escape (Pen.goes_write start (by simp [isFlat, isBreak])) read le hw

/-! ## Bare characters -/

theorem isSolid_of_isBare {ch : Char} (h : isBare ch = true) (space : ch ≠ ' ') :
    isSolid ch = true ∧ ch ≠ '"' ∧ ch ≠ '\\' := by
  have differs {e : Char} (he : isBare e = false) : ch ≠ e := by
    rintro rfl
    rw [he] at h
    exact absurd h Bool.false_ne_true
  have tab : ch ≠ '\t' := differs (by decide)
  have feed : ch ≠ '\n' := differs (by decide)
  have ret : ch ≠ '\r' := differs (by decide)
  have next : ch ≠ '\x85' := differs (by decide)
  have line : ch ≠ '\u2028' := differs (by decide)
  have paragraph : ch ≠ '\u2029' := differs (by decide)
  have mark : ch ≠ '\ufeff' := differs (by decide)
  refine ⟨?_, differs (by decide), differs (by decide)⟩
  simp [isSolid, isBlank, isFlat, isBreak, space, tab, feed, ret, next, line, paragraph, mark]

theorem Closes.after_bare {ch : Char} (bare : isBare ch = true) (space : ch ≠ ' ')
    (within : (p.write [ch]).Within text) (h : Closes true ((p.write [ch]).cursor text) s last) :
    Closes true (p.cursor text) (ch :: s) last := by
  obtain ⟨solid, quote, slash⟩ := isSolid_of_isBare bare space
  simp only [isSolid, Bool.and_eq_true, Bool.not_eq_true'] at solid
  have goes := Pen.goes_write within (by simpa using solid.2)
  refine h.prepend (x := [ch]) (fun w after hw => ?_) (Pen.length_rest_onward (Pen.onward_write _ _))
  by_cases single : ch = '\''
  · subst single
    exact readsWord_quote goes hw
  · refine readsWord_char goes ?_ hw
    have line := (Bool.and_eq_true_iff.mp solid.2).1
    rw [Bool.not_eq_true'] at line
    simp [isQuotedStop, single, quote, slash, solid.1, line]

/-- After blanks comes a character that is no break. -/
def Clear (c : Cursor) : Prop := ∃ ch, (c.skip isBlank).next? = some ch ∧ isBreak ch = false

theorem Firm.clear (h : Firm c) : Clear c := by
  have skip : c.skip isBlank = c := by rw [Cursor.skip, Cursor.span_stop h.not_blank]
  obtain ⟨ch, next, -, plain⟩ := h
  exact ⟨ch, by rw [skip, next], plain⟩

theorem span_blank (h : c.Goes [' '] d) :
    c.span isBlank = (' ' :: (d.span isBlank).1, (d.span isBlank).2) := by
  have taken : c.rest.takeWhile isBlank = ' ' :: d.rest.takeWhile isBlank := by
    rw [h.1, List.singleton_append, List.takeWhile_cons_of_pos rfl]
  have step : c.step = d := h.2
  simp only [Cursor.span, taken, List.length_cons, Cursor.advance, step]

theorem Clear.before_space (h : c.Goes [' '] d) (clear : Clear d) : Clear c := by
  unfold Clear Cursor.skip at clear ⊢
  rwa [span_blank h]

theorem quotedGap_clear (clear : Clear c) : quotedGap c = .ok (c.span isBlank) := by
  obtain ⟨ch, next, plain⟩ := clear
  obtain ⟨rest, hr⟩ := List.head?_eq_some_iff.mp next
  have filled : (c.span isBlank).2.rest.isEmpty = false := by
    show (c.skip isBlank).rest.isEmpty = false
    rw [hr]
    rfl
  have stop : (c.span isBlank).2.takeBreak? = none := by
    refine Cursor.takeBreak?_none fun e he => ?_
    obtain rfl : ch = e := Option.some.inj (next.symm.trans he)
    exact plain
  rw [quotedGap]
  simp only [filled, stop, Bool.false_eq_true, if_false]

/-- A space that is not folded is read as it is, with the spaces after it. -/
theorem Closes.after_space (goes : c.Goes [' '] d) (clear : Clear d) (h : Closes true d s last) :
    Closes true c (' ' :: s) last := by
  have between := quotedGap_clear (clear.before_space goes)
  rw [span_blank goes] at between
  have shorter (e : Cursor) (he : e.rest.length ≤ d.rest.length) : e.rest.length < c.rest.length := by
    rw [goes.length, List.length_singleton]
    omega
  by_cases blank : ∃ ch, d.next? = some ch ∧ isBlank ch = true
  · obtain ⟨ch, next, blank⟩ := blank
    have quote : ch ≠ '"' := by
      rintro rfl
      exact absurd blank (by decide)
    have word : ReadsWord true d [] d := by
      refine readsWord_nil next (by simp [isQuotedStop, blank]) ?_ ?_ fun _ => rfl
      all_goals
        rintro rfl
        exact absurd blank (by decide)
    cases h with
    | close hw hq =>
      obtain ⟨-, rfl⟩ := hw.unique word
      exact absurd (Option.some.inj (next.symm.trans hq)) quote
    | gap hw going gap short rest =>
      obtain ⟨rfl, rfl⟩ := hw.unique word
      rw [quotedGap_clear clear] at gap
      cases gap
      exact rest.after_gap goes.next? (.inl rfl) between (shorter _ (Nat.le_of_lt short))
  · have stop : ∀ ch ∈ d.next?, isBlank ch = false := by
      intro ch hc
      cases hb : isBlank ch with
      | false => rfl
      | true => exact absurd ⟨ch, hc, hb⟩ blank
    rw [Cursor.span_stop stop] at between
    exact h.after_gap goes.next? (.inl rfl) between (shorter d (Nat.le_refl _))

/-! ## Folded lines -/

/-- The pen on the next line of a text in double quotes. -/
def doubleLine (column : Nat) (p : Pen) : Pen := (p.write ['\\']).lineAt column

theorem foldDouble_same (far : column ≤ p.column) (next : Option Char) :
    (foldDouble column p next).Same
      ((doubleLine column p).write (if next = some ' ' then ['\\'] else [])) := by
  have line : (p.write ['\\']).indentTo column = doubleLine column p :=
    Pen.indentTo_break (.inr (by simp only [Pen.write, List.length_singleton]; omega))
  have same : ((p.write ['\\']).foldTo column).Same (doubleLine column p) := by
    rw [← line]
    exact ⟨rfl, rfl⟩
  rw [foldDouble]
  by_cases h : next = some ' '
  · rw [if_pos h, h]
    exact same.write _
  · rw [if_neg h]
    simpa [h] using same

theorem readEscape_fold (pos : 0 < column) (h : (p.lineAt column).Within text)
    (firm : Firm ((p.lineAt column).cursor text)) :
    readEscape (p.cursor text) = .ok ([], (p.lineAt column).cursor text) := by
  have line : (p.breakLine '\n').Within text := h.before_write
  have next : (p.cursor text).next? = some '\n' := Pen.next?_breakLine line
  have skip : (p.cursor text).skipBreak = (p.breakLine '\n').cursor text := by
    rw [Cursor.skipBreak, Pen.takeBreak?_breakLine line (.inl rfl)]
  have breaks : quotedBreaks ((p.cursor text).rest.length + 1) ((p.breakLine '\n').cursor text) =
      .ok ([], (p.lineAt column).cursor text) :=
    quotedBreaks_lines (by simp) pos h firm (Nat.succ_pos _)
  rw [readEscape, next]
  simp only [escaped?, escapeWidth?, skip, breaks]
  rfl

theorem Closes.after_fold (pos : 0 < column) (within : (doubleLine column p).Within text)
    (firm : Firm ((doubleLine column p).cursor text))
    (h : Closes true ((doubleLine column p).cursor text) s last) :
    Closes true (p.cursor text) s last := by
  have start : (p.write ['\\']).Within text :=
    within.of_onward ((Pen.onward_breakLine _ _).trans (Pen.onward_write _ _))
  have onward : (p.write ['\\']).Onward (doubleLine column p) :=
    (Pen.onward_breakLine _ _).trans (Pen.onward_write _ _)
  refine h.prepend (x := []) (fun w after hw => ?_)
    (Pen.length_rest_onward ((Pen.onward_write _ _).trans onward))
  exact readsWord_escape (Pen.goes_write start (by simp [isFlat, isBreak]))
    (readEscape_fold pos within firm) (Pen.length_rest_onward onward) hw

/-- A space at the start of a line is kept by a backslash. -/
theorem Closes.after_kept (within : ((p.write ['\\']).write [' ']).Within text)
    (h : Closes true (((p.write ['\\']).write [' ']).cursor text) s last) :
    Closes true (p.cursor text) (' ' :: s) last := by
  have space := Pen.goes_write within (by simp [isFlat, isBreak])
  refine h.prepend (x := [' ']) (fun w after hw => ?_)
    (Pen.length_rest_onward ((Pen.onward_write _ _).trans (Pen.onward_write _ _)))
  exact readsWord_escape (Pen.goes_write within.before_write (by simp [isFlat, isBreak]))
    (readEscape_short space rfl) (Pen.length_rest_onward (Pen.onward_write _ _)) hw

/-! ## Writing -/

theorem Pen.onward_foldDouble (p : Pen) (next : Option Char) :
    p.Onward (foldDouble column p next) := by
  have fold : p.Onward ((p.write ['\\']).foldTo column) :=
    (onward_write p _).trans (onward_foldTo _ column)
  unfold foldDouble
  dsimp only
  split
  · exact fold.trans (onward_write _ _)
  · exact fold

theorem write_pending (p : Pen) (pending : List Char) (ch : Char) :
    p.write (ch :: pending).reverse = (p.write pending.reverse).write [ch] := by
  rw [List.reverse_cons, Pen.write_append]

/-- How the next character is written: bare or escaped, and with or without a new line. -/
theorem doubleChars_cons (p : Pen) (pending : List Char) (ch : Char) (s : List Char) :
    isBare ch = true ∧ lineWidth < (p.write pending.reverse).column ∧
        writeDoubleChars column mayFold inside pending p (ch :: s) =
          writeDoubleChars column mayFold true [ch]
            (foldDouble column (p.write pending.reverse) (some ch)) s ∨
      isBare ch = true ∧ writeDoubleChars column mayFold inside pending p (ch :: s) =
        writeDoubleChars column mayFold true (ch :: pending) p s ∨
      lineWidth < ((p.write pending.reverse).write (escape ch)).column ∧
        writeDoubleChars column mayFold inside pending p (ch :: s) =
          writeDoubleChars column mayFold true []
            (foldDouble column ((p.write pending.reverse).write (escape ch)) s.head?) s ∨
      writeDoubleChars column mayFold inside pending p (ch :: s) =
        writeDoubleChars column mayFold true [] ((p.write pending.reverse).write (escape ch)) s := by
  rw [writeDoubleChars]
  dsimp only
  by_cases bare : isBare ch = true
  · rw [if_pos bare]
    split
    · next fold =>
      simp only [Bool.and_eq_true, decide_eq_true_eq] at fold
      refine .inl ⟨bare, ?_, rfl⟩
      simpa [Pen.write] using fold.2
    · exact .inr (.inl ⟨bare, rfl⟩)
  · rw [if_neg bare]
    split
    · next fold =>
      simp only [Bool.and_eq_true, decide_eq_true_eq] at fold
      exact .inr (.inr (.inl ⟨by omega, rfl⟩))
    · exact .inr (.inr (.inr rfl))

/-- At the start of a line nothing is folded. -/
theorem doubleChars_space (near : p.column ≤ lineWidth) (s : List Char) :
    writeDoubleChars column mayFold inside [] p (' ' :: s) =
      writeDoubleChars column mayFold true [' '] p s := by
  have stays : ¬ lineWidth < p.column := Nat.not_lt.mpr near
  have bare : isBare ' ' = true := by decide
  simp [writeDoubleChars, stays, bare]

theorem Pen.onward_doubleChars (p : Pen) (inside : Bool) (pending s : List Char) :
    (p.write pending.reverse).Onward (writeDoubleChars column mayFold inside pending p s) := by
  induction s generalizing p inside pending with
  | nil => exact .refl _
  | cons ch s ih =>
    obtain ⟨-, -, h⟩ | ⟨-, h⟩ | ⟨-, h⟩ | h :=
      @doubleChars_cons column mayFold inside p pending ch s
    · rw [h]
      exact (onward_foldDouble _ _).trans ((onward_write _ [ch]).trans (ih _ true [ch]))
    · rw [h]
      have more := ih p true (ch :: pending)
      rw [write_pending] at more
      exact (onward_write _ [ch]).trans more
    · rw [h]
      exact (onward_write _ _).trans ((onward_foldDouble _ _).trans (ih _ true []))
    · rw [h]
      exact (onward_write _ _).trans (ih ((p.write pending.reverse).write (escape ch)) true [])

theorem next?_escape {ch : Char} (h : (p.write (escape ch)).Within text) :
    (p.cursor text).next? = some '\\' :=
  Pen.next?_write (readEscape_escape h).1

theorem next?_foldDouble {next : Option Char} (h : (foldDouble column p next).Within text) :
    (p.cursor text).next? = some '\\' := by
  have fold : (p.write ['\\']).Onward (foldDouble column p next) := by
    unfold foldDouble
    dsimp only
    split
    · exact (Pen.onward_foldTo _ column).trans (Pen.onward_write _ _)
    · exact Pen.onward_foldTo _ column
  exact Pen.next?_write (h.of_onward fold)

/-- Where nothing is pending, what is not a space begins with no blank. -/
theorem firm_double (space : s.head? ≠ some ' ')
    (h : ((writeDoubleChars column mayFold inside [] p s).write ['"']).Within text) :
    Firm (p.cursor text) := by
  cases s with
  | nil => exact ⟨'"', Pen.next?_write h, rfl, rfl⟩
  | cons ch s =>
    have within := h.before_write
    obtain ⟨-, -, hw⟩ | ⟨bare, hw⟩ | ⟨-, hw⟩ | hw :=
      @doubleChars_cons column mayFold inside p [] ch s
    · rw [hw] at within
      have fold := within.of_onward ((Pen.onward_write _ [ch]).trans
        (Pen.onward_doubleChars _ true [ch] s))
      exact ⟨'\\', next?_foldDouble fold, rfl, rfl⟩
    · rw [hw] at within
      have start := within.of_onward (Pen.onward_doubleChars p true [ch] s)
      have solid := (isSolid_of_isBare bare (by simpa using space)).1
      simp only [isSolid, isFlat, Bool.and_eq_true, Bool.not_eq_true'] at solid
      exact ⟨ch, Pen.next?_write start, solid.1, solid.2.1⟩
    · rw [hw] at within
      have start := within.of_onward ((Pen.onward_foldDouble _ _).trans
        (Pen.onward_doubleChars _ true [] s))
      exact ⟨'\\', next?_escape start, rfl, rfl⟩
    · rw [hw] at within
      have start := within.of_onward (Pen.onward_doubleChars _ true [] s)
      exact ⟨'\\', next?_escape start, rfl, rfl⟩

/-- After a fold a space is kept. -/
theorem Closes.after_fold_kept (pos : 0 < column) (far : column ≤ p.column)
    (within : ((foldDouble column p (some ' ')).write [' ']).Within text)
    (h : Closes true (((foldDouble column p (some ' ')).write [' ']).cursor text) s last) :
    Closes true (p.cursor text) (' ' :: s) last := by
  have same : (foldDouble column p (some ' ')).Same ((doubleLine column p).write ['\\']) :=
    foldDouble_same far (some ' ')
  rw [(same.write [' ']).within] at within
  rw [(same.write [' ']).cursor] at h
  have line := within.before_write
  exact (h.after_kept within).after_fold pos line.before_write
    ⟨'\\', Pen.next?_write line, rfl, rfl⟩

/-- After a fold anything but a space goes on at once. -/
theorem Closes.after_fold_plain (pos : 0 < column) (far : column ≤ p.column) {next : Option Char}
    (hn : next ≠ some ' ') (within : (foldDouble column p next).Within text)
    (firm : Firm ((foldDouble column p next).cursor text))
    (h : Closes true ((foldDouble column p next).cursor text) s last) :
    Closes true (p.cursor text) s last := by
  have same : (foldDouble column p next).Same (doubleLine column p) := by
    have := foldDouble_same far next
    rwa [if_neg hn, Pen.write_nil] at this
  rw [same.within] at within
  rw [same.cursor] at firm h
  exact h.after_fold pos within firm

theorem column_foldDouble (far : column ≤ p.column) (next : Option Char) :
    (foldDouble column p next).column ≤ column + 1 := by
  rw [(foldDouble_same far next).2]
  split <;> simp [doubleLine, Pen.lineAt, Pen.breakLine, Pen.write]

/-- What is written between double quotes is read back. -/
theorem closes_double (pos : 0 < column) (narrow : column < lineWidth) (pending : List Char)
    (h : ((writeDoubleChars column mayFold inside pending p s).write ['"']).Within text) :
    Closes true ((p.write pending.reverse).cursor text) s
        (((writeDoubleChars column mayFold inside pending p s).write ['"']).cursor text) ∧
      Clear ((p.write pending.reverse).cursor text) := by
  -- Where a fold keeps a space, that is written with the next character: hence not by induction on
  -- the text itself, but on its length.
  induction hn : s.length using Nat.strongRecOn generalizing s inside pending p with
  | _ n ih =>
    cases s with
    | nil =>
      change ((p.write pending.reverse).write ['"']).Within text at h
      have quote := Pen.next?_write h
      have word : ReadsWord true _ [] _ := readsWord_nil quote rfl (by decide)
        (fun he => absurd he (by decide)) fun _ => rfl
      have close := Closes.close word quote
      rw [Pen.step_write h rfl] at close
      exact ⟨close, Firm.clear ⟨'"', quote, rfl, rfl⟩⟩
    | cons ch s =>
      rw [List.length_cons] at hn
      generalize hP : p.write pending.reverse = P
      have cases := @doubleChars_cons column mayFold inside p pending ch s
      rw [hP] at cases
      obtain ⟨bare, far, hw⟩ | ⟨bare, hw⟩ | ⟨far, hw⟩ | hw := cases
      · rw [hw] at h ⊢
        have far : column ≤ P.column := by omega
        obtain ⟨more, -⟩ := ih s.length (by omega) [ch] h rfl
        have within : ((foldDouble column P (some ch)).write [ch]).Within text :=
          h.before_write.of_onward (Pen.onward_doubleChars _ true [ch] s)
        have next := next?_foldDouble within.before_write
        refine ⟨?_, Firm.clear ⟨'\\', next, rfl, rfl⟩⟩
        by_cases space : ch = ' '
        · subst space
          exact Closes.after_fold_kept pos far within more
        · have solid := (isSolid_of_isBare bare space).1
          simp only [isSolid, isFlat, Bool.and_eq_true, Bool.not_eq_true'] at solid
          exact (Closes.after_bare bare space within more).after_fold_plain pos far (by simpa using space)
            within.before_write ⟨ch, Pen.next?_write within, solid.1, solid.2.1⟩
      · rw [hw] at h ⊢
        have within := h.before_write.of_onward (Pen.onward_doubleChars p true (ch :: pending) s)
        obtain ⟨more, clear⟩ := ih s.length (by omega) (ch :: pending) h rfl
        rw [write_pending, hP] at within more clear
        by_cases space : ch = ' '
        · subst space
          have goes := Pen.goes_write within (by simp [isFlat, isBreak])
          exact ⟨more.after_space goes clear, clear.before_space goes⟩
        · have solid := (isSolid_of_isBare bare space).1
          simp only [isSolid, isFlat, Bool.and_eq_true, Bool.not_eq_true'] at solid
          exact ⟨more.after_bare bare space within,
            Firm.clear ⟨ch, Pen.next?_write within, solid.1, solid.2.1⟩⟩
      · rw [hw] at h ⊢
        have far : column ≤ (P.write (escape ch)).column := by omega
        have fold := h.before_write.of_onward (Pen.onward_doubleChars _ true [] s)
        have start := fold.of_onward (Pen.onward_foldDouble _ _)
        refine ⟨?_, Firm.clear ⟨'\\', next?_escape start, rfl, rfl⟩⟩
        by_cases space : s.head? = some ' '
        · obtain ⟨s, rfl⟩ := List.head?_eq_some_iff.mp space
          have near := column_foldDouble far (some ' ')
          rw [List.head?_cons, doubleChars_space (by omega)] at h ⊢
          obtain ⟨more, -⟩ := ih s.length (by rw [List.length_cons] at hn; omega) [' '] h rfl
          have kept : ((foldDouble column (P.write (escape ch)) (some ' ')).write [' ']).Within text :=
            h.before_write.of_onward (Pen.onward_doubleChars _ true [' '] s)
          exact (Closes.after_fold_kept pos far kept more).after_escape start
        · obtain ⟨more, -⟩ := ih s.length (by omega) [] h rfl
          exact (Closes.after_fold_plain pos far space fold (firm_double space h) more).after_escape start
      · rw [hw] at h ⊢
        have start := h.before_write.of_onward (Pen.onward_doubleChars _ true [] s)
        obtain ⟨more, -⟩ := ih s.length (by omega) [] h rfl
        exact ⟨more.after_escape start, Firm.clear ⟨'\\', next?_escape start, rfl, rfl⟩⟩

end Neogrammar.Yaml
