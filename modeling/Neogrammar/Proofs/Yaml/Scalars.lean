import Neogrammar.Proofs.Yaml.DoubleQuoted
import Neogrammar.Proofs.Yaml.PlainText
import Neogrammar.Proofs.Yaml.Scanning
import Neogrammar.Proofs.Yaml.SingleQuoted

/-!
# Scalars as tokens

A scalar that was written, plain or in quotes, is one token with the text that it was written for.
It may stand as a value, with a new line after it, or as a key, with a colon after it.
-/
namespace Neogrammar.Yaml

namespace Pen

variable {text : List Char} {p : Pen}

/-- The pen at the first character of what is set off by a space. -/
def gap (p : Pen) : Pen := if p.afterBlank then p else p.write [' ']

theorem sign_same (p : Pen) (s : List Char) (opensItem : Bool) :
    (p.sign s true opensItem).Same (p.gap.write s) := by
  unfold sign gap
  cases p.afterBlank with
  | true => exact ⟨rfl, rfl⟩
  | false =>
    have reversed := congrArg Pen.reversed (write_cons p ' ' s)
    have column := congrArg Pen.column (write_cons p ' ' s)
    exact ⟨reversed, column⟩

theorem close_same (p : Pen) (s : List Char) (opensItem : Bool) :
    (p.sign s false opensItem).Same (p.write s) := by
  simp [Same, sign, write]

end Pen

namespace Scanner

variable {text : List Char} {s : Scanner}

/-! ## Keys to be -/

/-- The token that comes next, as a possible key. -/
def possibleKey (s : Scanner) : PossibleKey :=
  ⟨s.level, s.queue.length, !s.inFlow && s.indent == s.cursor.column, s.cursor.index, s.cursor.line,
    s.cursor.column⟩

/-- The scanner after a scalar, which may be a key. -/
def took (s : Scanner) (kind : TokenKind) (c : Cursor) (crossed : Bool) : Scanner :=
  { s.push kind with
    cursor := c
    mayStartKey := crossed
    keys := if s.mayStartKey then [s.possibleKey] else [] }

theorem dropKey_nil (h : s.keys = []) : s.dropKey = .ok s := by
  have none : s.keys.any (fun k => k.level == s.level && k.required) = false := by simp [h]
  have kept : s.keys.filter (fun k => k.level != s.level) = s.keys := by simp [h]
  rw [dropKey, none, kept]
  rfl

theorem saveKey_nil (h : s.keys = []) :
    s.saveKey = .ok { s with keys := if s.mayStartKey then [s.possibleKey] else [] } := by
  rw [saveKey]
  split
  · rw [dropKey_nil h, ok_bind, h]
    rfl
  · rw [← h]

theorem takeQuoted_closes {double : Bool} {w : List Char} {last : Cursor}
    (keys : s.keys = []) (h : Closes double (s.cursor.step) w last) :
    s.takeQuoted double = .ok (s.took (.scalar (String.ofList w) false) last false) := by
  have le : s.cursor.step.rest.length < s.cursor.rest.length + 1 := by
    cases hr : s.cursor.rest with
    | nil => simp [Cursor.step, hr]
    | cons ch rest => rw [Cursor.rest_step hr, List.length_cons]; omega
  rw [takeQuoted, saveKey_nil keys, ok_bind, readQuoted]
  simp only [h.read le, ok_bind]
  rfl

theorem takePlain_eq (keys : s.keys = []) :
    s.takePlain =
      let plain := readPlain s.inFlow (s.indent + 1) (s.cursor.rest.length + 1) [] false s.cursor
      .ok (s.took (.scalar (String.ofList plain.text) true) plain.cursor plain.crossed) := by
  rw [takePlain, saveKey_nil keys]
  rfl

variable {p : Pen} {n : Nat}

theorem optional_took (kind : TokenKind) {c : Cursor} (crossed : Bool)
    (apart : s.indent ≠ s.cursor.column) (line : s.cursor.line ≤ c.line) :
    (s.took kind c crossed).Optional := by
  intro k hk
  unfold took at hk
  split at hk
  · rw [List.mem_singleton.mp hk]
    exact ⟨by simp [possibleKey, apart], line⟩
  · exact absurd hk (List.not_mem_nil)

/-- After a scalar of one line the next token is reached on a new line. -/
theorem reach_took_line (kind : TokenKind) (crossed : Bool) (level : s.level = 0)
    (apart : s.indent ≠ s.cursor.column) (line : s.cursor.line ≤ (p.cursor text).line)
    (within : (p.lineAt n).Within text) (starts : ((p.lineAt n).cursor text).Starts) :
    (s.took kind (p.cursor text) crossed).reach =
      .ok (((s.push kind).onLine ((p.lineAt n).cursor text)).unwind n) := by
  have flow : (s.took kind (p.cursor text) crossed).inFlow = false := by simp [inFlow, took, push, level]
  rw [reach_line rfl within starts flow (optional_took kind crossed apart line)]
  rfl

/-- A plain scalar is only ended by the new line, so that the next token is reached with it. -/
theorem reach_took_crossed (kind : TokenKind) (apart : s.indent ≠ s.cursor.column)
    (line : s.cursor.line ≤ (p.cursor text).line)
    (starts : ((p.lineAt n).cursor text).Starts) :
    (s.took kind ((p.lineAt n).cursor text) true).reach =
      .ok (((s.push kind).onLine ((p.lineAt n).cursor text)).unwind n) := by
  have behind := Nat.lt_of_le_of_lt line (@Pen.line_lineAt text p n)
  rw [reach_crossed starts fun k hk => ?_]
  · have column : (s.took kind ((p.lineAt n).cursor text) true).cursor.column = n :=
      Pen.column_lineAt p n
    rw [column]
    rfl
  · have optional := optional_took kind true apart (Nat.le_of_lt behind) k hk
    refine ⟨optional.1, ?_⟩
    unfold took at hk
    split at hk
    · rw [List.mem_singleton.mp hk]
      exact behind
    · exact absurd hk (List.not_mem_nil)

/-! ## Plain scalars -/

/-- What takes a plain scalar to be one: it does not start with a sign. -/
theorem takeAt_plain {ch : Char} (level : s.level = 0) (solid : isSolid ch = true)
    (sign : "#,[]\x7b\x7d&*!|>'\"%@\x60".toList.contains ch = false)
    (mark : ch = '?' ∨ ch = ':' ∨ ch = '-' → endsWord (s.cursor.at? 1) = false)
    (dashes : s.cursor.atTriple '-' = false) (dots : s.cursor.atTriple '.' = false) :
    s.takeAt ch = s.takePlain := by
  have flow : s.inFlow = false := by simp [inFlow, level]
  have apart {e : Char} (he : "#,[]\x7b\x7d&*!|>'\"%@\x60".toList.contains e = true) : ch ≠ e := by
    rintro rfl
    rw [sign] at he
    exact absurd he Bool.false_ne_true
  have percent : ch ≠ '%' := apart (by decide)
  have openList : ch ≠ '[' := apart (by decide)
  have closeList : ch ≠ ']' := apart (by decide)
  have openMap : ch ≠ '\x7b' := apart (by decide)
  have closeMap : ch ≠ '\x7d' := apart (by decide)
  have comma : ch ≠ ',' := apart (by decide)
  have star : ch ≠ '*' := apart (by decide)
  have anchor : ch ≠ '&' := apart (by decide)
  have bang : ch ≠ '!' := apart (by decide)
  have bar : ch ≠ '|' := apart (by decide)
  have greater : ch ≠ '>' := apart (by decide)
  have single : ch ≠ '\'' := apart (by decide)
  have double : ch ≠ '"' := apart (by decide)
  have others : s.takeAt ch = if s.startsPlain ch then s.takePlain else .error s.fault := by
    by_cases h : ch = '?' ∨ ch = ':' ∨ ch = '-'
    · have going := mark h
      rcases h with rfl | rfl | rfl <;> simp [takeAt, standsAlone, flow, going, dashes]
    · obtain ⟨question, colon, dash⟩ := not_or.mp h |>.imp_right not_or.mp
      simp [takeAt, percent, openList, closeList, openMap, closeMap, comma, star, anchor, bang, bar,
        greater, single, double, question, colon, dash, dots]
  rw [others, if_pos]
  by_cases h : ch = '?' ∨ ch = ':' ∨ ch = '-'
  · have going := mark h
    rcases h with rfl | rfl | rfl <;> simp [startsPlain, flow, going]
  · obtain ⟨question, colon, dash⟩ := not_or.mp h |>.imp_right not_or.mp
    have hash : ch ≠ '#' := apart (by decide)
    have at' : ch ≠ '@' := apart (by decide)
    have tick : ch ≠ '\x60' := apart (by decide)
    simp only [isSolid, isFlat, Bool.and_eq_true, Bool.not_eq_true'] at solid
    simp [startsPlain, solid, percent, openList, closeList, openMap, closeMap, comma, star, anchor,
      bang, bar, greater, single, double, question, colon, dash, hash, at', tick]

theorem triple_of_append {e : Char} {w r : List Char} (h : [e, e, e].isPrefixOf (w ++ r) = true)
    (hr : r.head? ≠ some e) : [e, e, e].isPrefixOf w = true := by
  have stop {t : List Char} : (e :: t).isPrefixOf r = false := by
    cases r with
    | nil => rfl
    | cons d r =>
      have : e ≠ d := by
        rintro rfl
        exact hr rfl
      simp [List.isPrefixOf, this]
  match w with
  | [] => exact absurd h (by simp [stop])
  | [a] => simp [List.isPrefixOf, stop] at h
  | [a, b] => simp [List.isPrefixOf, stop] at h
  | a :: b :: c :: w => simpa [List.isPrefixOf] using h

theorem head_of_plainLength {r : List Char} (h : plainLength false r = 0) {e : Char}
    (he : e = '-' ∨ e = '.') : r.head? ≠ some e := by
  cases r with
  | nil => exact (Option.some_ne_none e).symm
  | cons d r =>
    intro hd
    obtain rfl : d = e := Option.some.inj hd
    rw [plainLength, if_neg] at h
    · exact absurd h (Nat.succ_ne_zero _)
    · rcases he with rfl | rfl <;> simp [plainEnds, isBlank, isBreak]

variable {column : Nat} {mayFold : Bool} {str : List Char}

/-- The first word of a plain text, as it is written. -/
theorem first_word (h : Worded str) (pos : 0 < column) (narrow : column ≤ lineWidth)
    (within : ((pieces str).foldl (writePlainPiece column mayFold) p).Within text)
    (stop : plainLength false
      (((pieces str).foldl (writePlainPiece column mayFold) p).cursor text).rest = 0) :
    ∃ w rest, str = w ++ rest ∧ IsWord w ∧ (p.write w).Within text ∧
      plainLength false ((p.write w).cursor text).rest = 0 ∧
      (rest = [] ∨ rest.head? = some ' ') := by
  cases h with
  | word word =>
    rw [← List.append_nil str, plainPieces_word word.solid] at within stop
    exact ⟨str, [], (List.append_nil str).symm, word, within, stop, .inl rfl⟩
  | @gap w s n word hn rest =>
    rw [plainPieces_word word.solid, pieces_spaces hn rest.head?_ne_space,
      List.foldl_cons] at within stop
    have inner := within.of_onward (Pen.onward_plainPieces _ _)
    refine ⟨w, _, rfl, word, inner.of_onward (Pen.onward_writePlainPiece _ _),
      (plainGap_pieces hn pos narrow inner (rest.rests within)).1, .inr ?_⟩
    obtain ⟨n, rfl⟩ := Nat.exists_eq_succ_of_ne_zero (Nat.pos_iff_ne_zero.mp hn)
    rfl

/-- A text of words that does not look like a sign is taken as a plain scalar. -/
theorem takeNext_plain (h : Worded str) (sign : looksLikeSign str = false) (pos : 0 < column)
    (narrow : column ≤ lineWidth) (hs : s.cursor = p.cursor text) (level : s.level = 0)
    (within : ((pieces str).foldl (writePlainPiece column mayFold) p).Within text)
    (stop : plainLength false
      (((pieces str).foldl (writePlainPiece column mayFold) p).cursor text).rest = 0) :
    s.takeNext = s.takePlain := by
  obtain ⟨w, rest, rfl, word, start, stopped, apart⟩ := first_word h pos narrow within stop
  have prefixes {e : Char} (he : e = '-' ∨ e = '.') (no : [e, e, e].isPrefixOf (w ++ rest) = false) :
      s.cursor.atTriple e = false := by
    rw [Cursor.atTriple, hs, Pen.rest_write start, Bool.and_eq_false_iff]
    refine .inl ?_
    cases hp : [e, e, e].isPrefixOf (w ++ ((p.write w).cursor text).rest) with
    | false => rfl
    | true =>
      have inWord := triple_of_append hp (head_of_plainLength stopped he)
      rw [List.isPrefixOf_iff_prefix] at inWord
      have inText := List.isPrefixOf_iff_prefix.mpr (inWord.trans (List.prefix_append w rest))
      rw [no] at inText
      exact absurd inText Bool.false_ne_true
  obtain ⟨c, w, rfl, solid, -⟩ := word.first
  simp only [looksLikeSign, List.cons_append, Bool.or_eq_false_iff, opensSign] at sign
  obtain ⟨⟨dashes, dots⟩, ⟨first, second⟩, -⟩ := sign
  have next : s.cursor.next? = some c := hs ▸ Pen.next?_write start
  rw [takeNext, next]
  refine takeAt_plain level solid first ?_ (prefixes (.inl rfl) dashes) (prefixes (.inr rfl) dots)
  intro mark
  have going : setsApart (w ++ rest).head? = false := by
    rcases mark with rfl | rfl | rfl <;> simpa using second
  cases w with
  | nil => rcases apart with rfl | space <;> simp_all [setsApart]
  | cons d w =>
    have second : s.cursor.at? 1 = some d := by
      rw [Cursor.at?, hs, Pen.rest_write start]
      rfl
    have solid := word.solid d (by simp)
    simp only [isSolid, isFlat, isBlank, Bool.and_eq_true, Bool.not_eq_true',
      Bool.or_eq_false_iff] at solid
    simp [second, endsWord, solid]

/-- A plain scalar that is a value: a new line ends it. -/
theorem plain_value (h : Worded str) (sign : looksLikeSign str = false) (pos : 0 < column)
    (narrow : column ≤ lineWidth) (hs : s.cursor = p.cursor text) (level : s.level = 0)
    (keys : s.keys = []) (going : s.done = false) (inner : s.indent < p.column)
    (deep : s.indent < column) (outer : n ≤ s.indent)
    (within : (((pieces str).foldl (writePlainPiece column mayFold) p).lineAt n).Within text)
    (starts : ((((pieces str).foldl (writePlainPiece column mayFold) p).lineAt n).cursor
      text).Starts) :
    ∃ t, s.takeNext = .ok t ∧ t.done = false ∧ t.reach =
      .ok (((s.push (.scalar (String.ofList str) true)).onLine
        ((((pieces str).foldl (writePlainPiece column mayFold) p).lineAt n).cursor text)).unwind n) := by
  have line := within.before_write
  have written := line.of_onward (Pen.onward_breakLine _ _)
  have stop : plainLength false
      (((pieces str).foldl (writePlainPiece column mayFold) p).cursor text).rest = 0 := by
    rw [Pen.rest_breakLine line]
    rfl
  obtain ⟨gap, hg, -⟩ := plainGap_line within starts.rests
  have flow : s.inFlow = false := by simp [inFlow, level]
  have read := readPlain_pieces h pos narrow written (by omega : s.indent + 1 ≤ column) (by omega)
    stop hg (.inr (.inr (by rw [Pen.column_lineAt]; omega))) (Nat.lt_succ_self _) [] false
  rw [takeNext_plain h sign pos narrow hs level written stop, takePlain_eq keys, flow]
  refine ⟨_, rfl, going, ?_⟩
  rw [← hs] at read
  rw [read]
  refine reach_took_crossed _ ?_ ?_ starts
  · rw [hs]
    exact Int.ne_of_lt inner
  · rw [hs]
    exact Pen.line_onward (Pen.onward_plainPieces _ _)

/-- A plain scalar that is a key: a colon ends it. -/
theorem plain_key (h : Worded str) (sign : looksLikeSign str = false) (pos : 0 < column)
    (narrow : column ≤ lineWidth) (hs : s.cursor = p.cursor text) (level : s.level = 0)
    (keys : s.keys = []) (inner : s.indent ≤ p.column) (deep : s.indent < column)
    (within : (((pieces str).foldl (writePlainPiece column mayFold) p).write [':']).Within text)
    (apart : endsWord
      ((((pieces str).foldl (writePlainPiece column mayFold) p).write [':']).cursor text).next? = true) :
    s.takeNext = .ok (s.took (.scalar (String.ofList str) true)
      (((pieces str).foldl (writePlainPiece column mayFold) p).cursor text) false) := by
  have written := within.before_write
  have rest := Pen.rest_write within
  have stop : plainLength false
      (((pieces str).foldl (writePlainPiece column mayFold) p).cursor text).rest = 0 := by
    rw [Cursor.next?] at apart
    rw [rest, List.singleton_append, plainLength, if_pos]
    simp [plainEnds, apart]
  have rests : (((pieces str).foldl (writePlainPiece column mayFold) p).cursor text).Rests := by
    intro ch hc
    rw [Pen.next?_write within] at hc
    cases hc
    exact ⟨by decide, rfl⟩
  have hg := plainGap_spaces (n := 0) written rests
  have flow : s.inFlow = false := by simp [inFlow, level]
  have read := readPlain_pieces h pos narrow written (by omega : s.indent + 1 ≤ column) (by omega)
    stop hg (.inl rfl) (Nat.lt_succ_self _) [] false
  rw [takeNext_plain h sign pos narrow hs level written stop, takePlain_eq keys, flow]
  rw [← hs] at read
  rw [read]
  rfl

/-! ## Scalars in quotes -/

variable {double : Bool} {q : Pen}

theorem quoted_key (hs : s.cursor = p.cursor text) (keys : s.keys = [])
    (next : (p.cursor text).next? = some (closingQuote double))
    (closes : Closes double (p.cursor text).step str (q.cursor text)) :
    s.takeNext = .ok (s.took (.scalar (String.ofList str) false) (q.cursor text) false) := by
  rw [← hs] at next closes
  rw [takeNext, next]
  cases double with
  | false => exact takeQuoted_closes keys closes
  | true => exact takeQuoted_closes keys closes

theorem quoted_value (hs : s.cursor = p.cursor text) (level : s.level = 0) (keys : s.keys = [])
    (going : s.done = false) (next : (p.cursor text).next? = some (closingQuote double))
    (closes : Closes double (p.cursor text).step str (q.cursor text)) (onward : p.Onward q)
    (inner : s.indent < p.column) (within : (q.lineAt n).Within text)
    (starts : ((q.lineAt n).cursor text).Starts) :
    ∃ t, s.takeNext = .ok t ∧ t.done = false ∧ t.reach =
      .ok (((s.push (.scalar (String.ofList str) false)).onLine ((q.lineAt n).cursor text)).unwind n) := by
  refine ⟨_, quoted_key hs keys next closes, going, reach_took_line _ false level ?_ ?_ within starts⟩
  · rw [hs]
    exact Int.ne_of_lt inner
  · rw [hs]
    exact Pen.line_onward onward

end Scanner

variable {text : List Char} {column : Nat} {mayFold : Bool} {p : Pen} {str : List Char}

/-- A text in single quotes, from its first quote on. -/
theorem single_closes (pos : 0 < column) (narrow : column ≤ lineWidth)
    (plain : needsEscapes str = false) (keeps : '\x85' ∉ str)
    (within : (writeSingle column mayFold p str).Within text)
    (ends : ((writeSingle column mayFold p str).cursor text).next? ≠ some '\'') :
    (p.gap.cursor text).next? = some (closingQuote false) ∧
      p.gap.Onward (writeSingle column mayFold p str) ∧
      Closes false (p.gap.cursor text).step str ((writeSingle column mayFold p str).cursor text) := by
  have opened : (p.sign ['\''] true false).Same (p.gap.write ['\'']) := p.sign_same ['\''] false
  generalize hq : writeSinglePieces column mayFold true (p.sign ['\''] true false) (pieces str) = q
  have onward : (p.sign ['\''] true false).Onward q := hq ▸ Pen.onward_singlePieces _ _ _
  have closed : (writeSingle column mayFold p str).Same (q.write ['\'']) := by
    rw [writeSingle, hq]
    exact q.close_same ['\''] false
  rw [closed.within] at within
  rw [closed.cursor] at ends ⊢
  have start : (p.gap.write ['\'']).Within text :=
    opened.within.mp (within.before_write.of_onward onward)
  simp only [needsEscapes, Bool.or_eq_false_iff, List.any_eq_false, Bool.not_eq_true] at plain
  obtain ⟨⟨special, after⟩, before⟩ := plain
  refine ⟨Pen.next?_write start, ?_, ?_⟩
  · exact (Pen.onward_write _ _).trans (opened.symm.onward.trans
      (onward.trans ((Pen.onward_write _ _).trans closed.symm.onward)))
  · subst hq
    have closes := closes_single (cut str) pos narrow special keeps after before within ends
    rwa [opened.cursor, ← Pen.step_write start rfl] at closes

/-- A text in double quotes, from its first quote on. -/
theorem double_closes (pos : 0 < column) (narrow : column < lineWidth)
    (within : (writeDouble column mayFold p str).Within text) :
    (p.gap.cursor text).next? = some (closingQuote true) ∧
      p.gap.Onward (writeDouble column mayFold p str) ∧
      Closes true (p.gap.cursor text).step str ((writeDouble column mayFold p str).cursor text) := by
  have opened : (p.sign ['"'] true false).Same (p.gap.write ['"']) := p.sign_same ['"'] false
  generalize hq : writeDoubleChars column mayFold false [] (p.sign ['"'] true false) str = q
  have onward : (p.sign ['"'] true false).Onward q :=
    hq ▸ Pen.onward_doubleChars (p.sign ['"'] true false) false [] str
  have closed : (writeDouble column mayFold p str).Same (q.write ['"']) := by
    rw [writeDouble, hq]
    exact q.close_same ['"'] false
  rw [closed.within] at within
  rw [closed.cursor]
  have start : (p.gap.write ['"']).Within text :=
    opened.within.mp (within.before_write.of_onward onward)
  refine ⟨Pen.next?_write start, ?_, ?_⟩
  · exact (Pen.onward_write _ _).trans (opened.symm.onward.trans
      (onward.trans ((Pen.onward_write _ _).trans closed.symm.onward)))
  · subst hq
    have closes := (closes_double pos narrow [] within).1
    rw [List.reverse_nil, Pen.write_nil] at closes
    rwa [opened.cursor, ← Pen.step_write start rfl] at closes

/-! ## Texts -/

theorem writePlain_eq (h : str ≠ []) :
    writePlain column mayFold p str = (pieces str).foldl (writePlainPiece column mayFold)
      { p.gap with afterBlank := false, indented := false } := by
  have filled : str.isEmpty = false := by simpa using h
  rw [writePlain, filled, Bool.or_false]
  rfl

theorem Worded.ne_nil (h : Worded str) : str ≠ [] := by
  obtain ⟨w, rest, rfl, word⟩ := h.first
  simp [word.pos]

theorem not_looksLikeSign (h : isPlain str = true) : looksLikeSign str = false := by
  simp only [isPlain, Bool.and_eq_true, Bool.not_eq_true'] at h
  exact h.1.1.2

theorem writeText_cases (column : Nat) (isKey : Bool) (p : Pen) (str : List Char) :
    isPlain str = true ∧ writeText column isKey p str = writePlain column (!isKey) p str ∨
      isPlain str = false ∧ needsEscapes str = false ∧
        writeText column isKey p str = writeSingle column (!isKey) p str ∨
      isPlain str = false ∧ writeText column isKey p str = writeDouble column (!isKey) p str := by
  unfold writeText styleOf
  by_cases plain : isPlain str = true
  · exact .inl ⟨plain, by rw [if_pos plain]⟩
  · rw [if_neg plain]
    rw [Bool.not_eq_true] at plain
    by_cases double : (needsEscapes str || (isKey && str.any isLineEnd)) = true
    · exact .inr (.inr ⟨plain, by rw [if_pos double]⟩)
    · refine .inr (.inl ⟨plain, ?_, by rw [if_neg double]⟩)
      rw [Bool.not_eq_true, Bool.or_eq_false_iff] at double
      exact double.1

/-- A text that is a value is one token. -/
theorem text_value (pos : 0 < column) (narrow : column < lineWidth)
    (keeps : '\x85' ∉ str ∨ needsEscapes str = true) {s : Scanner} {n : Nat}
    (hs : s.cursor = p.gap.cursor text) (level : s.level = 0) (keys : s.keys = [])
    (going : s.done = false) (inner : s.indent < p.gap.column) (deep : s.indent < column)
    (outer : n ≤ s.indent) (within : ((writeText column false p str).lineAt n).Within text)
    (starts : (((writeText column false p str).lineAt n).cursor text).Starts) :
    ∃ t, s.takeNext = .ok t ∧ t.done = false ∧ t.reach =
      .ok (((s.push (.scalar (String.ofList str) (isPlain str))).onLine
        (((writeText column false p str).lineAt n).cursor text)).unwind n) := by
  have line := within.before_write
  have written := line.of_onward (Pen.onward_breakLine _ _)
  obtain ⟨plain, h⟩ | ⟨plain, single, h⟩ | ⟨plain, h⟩ := writeText_cases column false p str
  · have worded := worded_of_isPlain plain
    rw [h, writePlain_eq worded.ne_nil] at within starts ⊢
    rw [plain]
    exact Scanner.plain_value worded (not_looksLikeSign plain) pos (Nat.le_of_lt narrow) hs level keys
      going inner deep outer within starts
  · have keeps : '\x85' ∉ str := keeps.resolve_right (by simp [single])
    rw [h] at within starts line written ⊢
    have ends : ((writeSingle column (!false) p str).cursor text).next? ≠ some '\'' := by
      rw [Pen.next?_breakLine line]
      decide
    obtain ⟨next, onward, closes⟩ := single_closes pos (Nat.le_of_lt narrow) single keeps written ends
    rw [plain]
    exact Scanner.quoted_value hs level keys going next closes onward inner within starts
  · rw [h] at within starts written ⊢
    obtain ⟨next, onward, closes⟩ := double_closes pos narrow written
    rw [plain]
    exact Scanner.quoted_value hs level keys going next closes onward inner within starts

/-- A text that is a key is one token. -/
theorem text_key (pos : 0 < column) (narrow : column < lineWidth)
    (keeps : '\x85' ∉ str ∨ needsEscapes str = true) {s : Scanner}
    (hs : s.cursor = p.gap.cursor text) (level : s.level = 0) (keys : s.keys = [])
    (inner : s.indent ≤ p.gap.column) (deep : s.indent < column)
    (within : ((writeText column true p str).write [':']).Within text)
    (apart : endsWord (((writeText column true p str).write [':']).cursor text).next? = true) :
    s.takeNext = .ok (s.took (.scalar (String.ofList str) (isPlain str))
      ((writeText column true p str).cursor text) false) := by
  have written := within.before_write
  obtain ⟨plain, h⟩ | ⟨plain, single, h⟩ | ⟨plain, h⟩ := writeText_cases column true p str
  · have worded := worded_of_isPlain plain
    rw [h, writePlain_eq worded.ne_nil] at within apart ⊢
    rw [plain]
    exact Scanner.plain_key worded (not_looksLikeSign plain) pos (Nat.le_of_lt narrow) hs level keys
      inner deep within apart
  · have keeps : '\x85' ∉ str := keeps.resolve_right (by simp [single])
    rw [h] at within apart written ⊢
    have ends : ((writeSingle column (!true) p str).cursor text).next? ≠ some '\'' := by
      rw [Pen.next?_write within]
      decide
    obtain ⟨next, -, closes⟩ := single_closes pos (Nat.le_of_lt narrow) single keeps written ends
    rw [plain]
    exact Scanner.quoted_key hs keys next closes
  · rw [h] at within apart written ⊢
    obtain ⟨next, -, closes⟩ := double_closes pos narrow written
    rw [plain]
    exact Scanner.quoted_key hs keys next closes

end Neogrammar.Yaml
