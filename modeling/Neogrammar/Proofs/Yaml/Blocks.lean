import Neogrammar.Proofs.Yaml.Layout
import Neogrammar.Proofs.Yaml.Nodes

/-!
# Blocks as tokens

The text that was written for plain data is cut into the tokens of these data. The induction is on
the data; what it carries is where the scanner stands: at the place of a pen, with the tokens so far
and the columns of the open blocks, and without a token that may still turn out to be a key.
-/
namespace Neogrammar.Yaml

variable {text : List Char} {p q : Pen} {ch : Char} {column c m : Nat} {inMapping loose : Bool}
  {ks ks' : List TokenKind} {is is' : List Int}

/-! ## Places after a sign -/

/-- The pen is after the sign of an item, key or value of a block at a column. A loose place is one
after the colon of a simple key: collections begin on a new line there. -/
structure Pen.Signed (column : Nat) (inMapping loose : Bool) (p : Pen) : Prop where
  afterBlank : p.afterBlank = false
  past : column < p.column
  loose_eq : (inMapping && !p.indented) = loose
  inline : loose = false → p.indented = true ∧ p.column = column + 1

namespace Pen.Signed

variable (h : p.Signed column inMapping loose)
include h

theorem gap : p.gap = p.write [' '] := by
  rw [Pen.gap, h.afterBlank, if_neg Bool.false_ne_true]

theorem indented (hl : loose = true) : p.indented = false := by
  have := h.loose_eq
  rw [hl, Bool.and_eq_true, Bool.not_eq_true'] at this
  exact this.2

theorem indentTo_loose (hl : loose = true) (c : Nat) : p.indentTo c = p.lineAt c :=
  Pen.indentTo_break (.inl (h.indented hl))

theorem indentTo_inline (hl : loose = false) :
    p.indentTo (column + 2) = { p.write [' '] with afterBlank := true } := by
  have next := Pen.indentTo_next (h.inline hl).1 h.afterBlank
  rwa [(h.inline hl).2] at next

/-- A blank or a new line follows on the sign. -/
theorem endsWord_indentTo (hc : loose = false → c = column + 2)
    (within : (p.indentTo c).Within text) : endsWord (p.cursor text).next? = true := by
  cases hl : loose with
  | true =>
    rw [h.indentTo_loose hl] at within
    rw [Pen.next?_breakLine within.before_write]
    rfl
  | false =>
    rw [hc hl, h.indentTo_inline hl] at within
    rw [Pen.next?_write (p := p) (s := []) within]
    rfl

theorem endsWord_gap (within : p.gap.Within text) : endsWord (p.cursor text).next? = true := by
  rw [h.gap] at within
  rw [Pen.next?_write within]
  rfl

end Pen.Signed

/-! ## Scanners at the place of a pen -/

/-- The scanner is at the place of a pen, outside of brackets: the kinds of the tokens so far, and
the columns of the open blocks, the innermost first. -/
structure Scanner.Stands (text : List Char) (p : Pen) (kinds : List TokenKind)
    (indents : List Int) (s : Scanner) : Prop where
  cursor : s.cursor = p.cursor text
  kinds : s.queue.map (·.kind) = kinds
  indents : s.indent :: s.outerIndents = indents
  level : s.level = 0
  keys : s.keys = []
  going : s.done = false

namespace Scanner

variable {s t u v : Scanner}

theorem cursor_unwind (s : Scanner) (column : Int) : (s.unwind column).cursor = s.cursor := by
  have close (indents : List Int) (s : Scanner) :
      (unwind.close column indents s).cursor = s.cursor := by
    induction indents generalizing s with
    | nil => rfl
    | cons outer rest ih =>
      rw [unwind.close]
      split
      · exact ih _
      · rfl
  unfold unwind
  split
  · rfl
  · exact close _ s

namespace Stands

theorem inFlow (h : s.Stands text p ks is) : s.inFlow = false := by simp [Scanner.inFlow, h.level]

theorem same (h : s.Stands text p ks is) (same : p.Same q) : s.Stands text q ks is :=
  { h with cursor := by rw [h.cursor, same.cursor] }

theorem indent {i : Int} (h : s.Stands text p ks (i :: is)) : s.indent = i :=
  (List.cons.inj h.indents).1

theorem outer {i : Int} (h : s.Stands text p ks (i :: is)) : s.outerIndents = is :=
  (List.cons.inj h.indents).2

theorem closeBlock {i j : Int} (h : s.Stands text p ks (i :: j :: is)) :
    s.closeBlock.Stands text p (ks ++ [.blockEnd]) (j :: is) := by
  refine ⟨h.cursor, ?_, ?_, h.level, h.keys, h.going⟩
  · simp [Scanner.closeBlock, push, h.kinds]
  · simp [Scanner.closeBlock, h.outer]

theorem unwind_closeBlock {i j : Int} (h : s.Stands text p ks (i :: j :: is)) {column : Int}
    (lt : column < i) : s.unwind column = s.closeBlock.unwind column :=
  Scanner.unwind_closeBlock h.inFlow (h.indent.symm ▸ lt) (h.outer.symm ▸ List.cons_ne_nil j is)

theorem unwind_of_le {i : Int} (h : s.Stands text p ks (i :: is)) {column : Int} (le : i ≤ column) :
    s.unwind column = s :=
  Scanner.unwind_of_le (h.indent.symm ▸ le)

end Stands

/-- Opening a block at a column, where none is open yet. -/
inductive Opened (kind : TokenKind) (column : Nat) (ks : List TokenKind) :
    List Int → List TokenKind → List Int → Prop
  | already (is : List Int) : Opened kind column ks (column :: is) ks (column :: is)
  | fresh {i : Int} (is : List Int) (lt : i < column) :
      Opened kind column ks (i :: is) (ks ++ [kind]) (column :: i :: is)

theorem Stands.openBlock {kind : TokenKind} (h : s.Stands text p ks is)
    (opened : Opened kind column ks is ks' is') (hp : p.column = column) :
    (s.openBlock kind).Stands text p ks' is' ∧ (s.openBlock kind).mayStartKey = s.mayStartKey := by
  have place : s.cursor.column = column := by rw [h.cursor, ← hp]; rfl
  unfold Scanner.openBlock opens
  rw [place]
  cases opened with
  | already is =>
    rw [h.indent, decide_eq_false (Int.lt_irrefl _), if_neg Bool.false_ne_true]
    exact ⟨h, rfl⟩
  | fresh is lt =>
    rw [h.indent, decide_eq_true lt, if_pos rfl]
    refine ⟨⟨h.cursor, ?_, ?_, h.level, h.keys, h.going⟩, rfl⟩
    · simp [push, indentTo, h.kinds]
    · simp [push, indentTo, h.indent, h.outer]

/-! ## Signs -/

theorem Stands.take {ch : Char} (h : s.Stands text p ks is) (kind : TokenKind)
    (within : (p.write [ch]).Within text) (flat : isFlat ch = true) :
    (s.take kind 1).Stands text (p.write [ch]) (ks ++ [kind]) is := by
  refine ⟨?_, ?_, h.indents, h.level, h.keys, h.going⟩
  · show s.cursor.advance 1 = _
    rw [h.cursor]
    exact Pen.advance_write within (by simpa using flat)
  · simp [Scanner.take, push, h.kinds]

theorem Stands.mayStartKey (h : s.Stands text p ks is) (may : Bool) :
    { s with mayStartKey := may }.Stands text p ks is :=
  ⟨h.cursor, h.kinds, h.indents, h.level, h.keys, h.going⟩

theorem not_atTriple {ch : Char} (next : (p.cursor text).next? = some ch)
    (apart : endsWord ((p.cursor text).at? 1) = true) (e : Char) (word : endsWord (some e) = false) :
    (p.cursor text).atTriple e = false := by
  obtain ⟨rest, hr⟩ := List.head?_eq_some_iff.mp next
  rw [Cursor.at?, hr] at apart
  cases rest with
  | nil => simp [Cursor.atTriple, hr, List.isPrefixOf]
  | cons d rest =>
    have : e ≠ d := by
      rintro rfl
      rw [List.getElem?_cons_succ, List.getElem?_cons_zero, word] at apart
      exact absurd apart Bool.false_ne_true
    simp [Cursor.atTriple, hr, List.isPrefixOf, this]

section Signs

variable (h : s.Stands text p ks is) (may : s.mayStartKey = true) (hp : p.column = column)
include h may hp

/-- The dash of an item. -/
theorem Stands.takeNext_dash (opened : Opened .blockSequenceStart column ks is ks' is')
    (within : (p.write ['-']).Within text)
    (apart : endsWord ((p.write ['-']).cursor text).next? = true) :
    ∃ t, s.takeNext = .ok t ∧ t.Stands text (p.write ['-']) (ks' ++ [.blockEntry]) is' ∧
      t.mayStartKey = true := by
  have next : s.cursor.next? = some '-' := h.cursor ▸ Pen.next?_write within
  rw [← Pen.at?_write within, ← h.cursor] at apart
  have triple : s.cursor.atTriple '-' = false := by
    rw [h.cursor] at next apart ⊢
    exact not_atTriple next apart '-' rfl
  obtain ⟨block, -⟩ := h.openBlock opened hp
  refine ⟨_, ?_, (block.take _ within rfl).mayStartKey true, rfl⟩
  rw [takeNext, next]
  simp [takeAt, triple, apart, takeDash, h.inFlow, may, dropKey_nil block.keys]

/-- The question mark before a key that takes more than a line. -/
theorem Stands.takeNext_question (opened : Opened .blockMappingStart column ks is ks' is')
    (within : (p.write ['?']).Within text)
    (apart : endsWord ((p.write ['?']).cursor text).next? = true) :
    ∃ t, s.takeNext = .ok t ∧ t.Stands text (p.write ['?']) (ks' ++ [.key]) is' ∧
      t.mayStartKey = true := by
  have next : s.cursor.next? = some '?' := h.cursor ▸ Pen.next?_write within
  rw [← Pen.at?_write within, ← h.cursor] at apart
  obtain ⟨block, -⟩ := h.openBlock opened hp
  have take : s.takeNext = .ok { (s.openBlock .blockMappingStart).take .key 1 with
      mayStartKey := !(s.openBlock .blockMappingStart).inFlow } := by
    rw [takeNext, next]
    simp [takeAt, standsAlone, apart, takeQuestion, h.inFlow, may, dropKey_nil block.keys]
  rw [block.inFlow] at take
  exact ⟨_, take, (block.take _ within rfl).mayStartKey true, rfl⟩

end Signs

/-- The colon on a line of its own, after such a key. -/
theorem Stands.takeNext_colon (h : s.Stands text p ks (column :: is)) (may : s.mayStartKey = true)
    (hp : p.column = column) (within : (p.write [':']).Within text)
    (apart : endsWord ((p.write [':']).cursor text).next? = true) :
    ∃ t, s.takeNext = .ok t ∧ t.Stands text (p.write [':']) (ks ++ [.value]) (column :: is) ∧
      t.mayStartKey = true := by
  have next : s.cursor.next? = some ':' := h.cursor ▸ Pen.next?_write within
  rw [← Pen.at?_write within, ← h.cursor] at apart
  have block : s.openBlock .blockMappingStart = s := by
    have place : s.cursor.column = column := by rw [h.cursor, ← hp]; rfl
    rw [Scanner.openBlock, opens, place, h.indent, decide_eq_false (Int.lt_irrefl _),
      if_neg Bool.false_ne_true]
  have stands := h.mayStartKey (!s.inFlow)
  refine ⟨{ s with mayStartKey := !s.inFlow }.take .value 1, ?_, stands.take _ within rfl, ?_⟩
  · rw [takeNext, next]
    simp only [takeAt]
    simp [standsAlone, apart, takeColon, h.inFlow, may, h.keys, block]
    rw [dropKey_nil rfl]
    rfl
  · simp [Scanner.take, push, h.inFlow]

theorem insertIdx_length {α : Type} (as bs : List α) (a : α) :
    (as ++ bs).insertIdx as.length a = as ++ a :: bs := by
  induction as with
  | nil => rfl
  | cons b as ih => rw [List.cons_append, List.length_cons, List.insertIdx_succ_cons, ih]; rfl

/-- What was taken turns out to be a key: the token for that is put before it, and the one that
opens a block before both. -/
theorem Stands.confirmKey (h : s.Stands text p ks is) (may : s.mayStartKey = true)
    (opened : Opened .blockMappingStart column ks is ks' is') (hp : p.column = column)
    (kind : TokenKind) (q : Pen) :
    ((s.took kind (q.cursor text) false).confirmKey s.possibleKey).Stands text q
      (ks' ++ [.key, kind]) is' := by
  have place : s.possibleKey.column = column := by
    show s.cursor.column = column
    rw [h.cursor, ← hp]
    rfl
  have insert (token : Token) (more : List Token) :
      (s.queue ++ more).insertIdx s.possibleKey.number token = s.queue ++ token :: more :=
    insertIdx_length s.queue more token
  -- the scanner with the key noted, before a block is opened for it
  let t : Scanner := { s with
    cursor := q.cursor text
    queue := s.queue ++ [⟨.key, s.possibleKey.line⟩, ⟨kind, s.cursor.line⟩]
    mayStartKey := false
    keys := [] }
  have noted : t.Stands text q (ks ++ [.key, kind]) is :=
    ⟨rfl, by simp [t, h.kinds], h.indents, h.level, rfl, h.going⟩
  have confirmed : (s.took kind (q.cursor text) false).confirmKey s.possibleKey =
      if !t.inFlow && t.opens column then { t.indentTo column with
        queue := t.queue.insertIdx s.possibleKey.number ⟨.blockMappingStart, s.possibleKey.line⟩ }
      else t := by
    have keys : (s.took kind (q.cursor text) false).keys = [s.possibleKey] := if_pos may
    have gone : [s.possibleKey].filter (fun k => k.level != s.level) = [] := by simp [possibleKey]
    have queue := insert ⟨.key, s.possibleKey.line⟩ [⟨kind, s.cursor.line⟩]
    rw [← place]
    unfold Scanner.confirmKey
    rw [keys]
    show (if _ then _ else _) = _
    simp only [took, push, gone, queue]
    rfl
  rw [confirmed, noted.inFlow, opens]
  cases opened with
  | already is =>
    rw [noted.indent, decide_eq_false (Int.lt_irrefl _)]
    exact noted
  | fresh is lt =>
    rw [noted.indent, decide_eq_true lt]
    refine ⟨rfl, ?_, ?_, h.level, rfl, h.going⟩
    · simp [t, insert, h.kinds, indentTo]
    · simp [t, indentTo, h.indent, h.outer]

/-- The colon right after a token that turns out to be a key. -/
theorem Stands.takeNext_value (h : s.Stands text p ks is) (may : s.mayStartKey = true)
    (opened : Opened .blockMappingStart column ks is ks' is') (hp : p.column = column)
    (kind : TokenKind) (within : (q.write [':']).Within text)
    (apart : endsWord ((q.write [':']).cursor text).next? = true) :
    ∃ t, (s.took kind (q.cursor text) false).takeNext = .ok t ∧
      t.Stands text (q.write [':']) (ks' ++ [.key, kind, .value]) is' := by
  have next : (s.took kind (q.cursor text) false).cursor.next? = some ':' := Pen.next?_write within
  have apart : endsWord ((s.took kind (q.cursor text) false).cursor.at? 1) = true := by
    rw [← apart, ← Pen.at?_write within]
    rfl
  have keys : (s.took kind (q.cursor text) false).keys = [s.possibleKey] := if_pos may
  have level : (s.possibleKey.level == (s.took kind (q.cursor text) false).level) = true :=
    beq_self_eq_true s.level
  refine ⟨((s.took kind (q.cursor text) false).confirmKey s.possibleKey).take .value 1, ?_, ?_⟩
  · rw [takeNext, next]
    simp only [takeAt]
    simp [standsAlone, apart, takeColon, keys, level]
  · have stands := (h.confirmKey may opened hp kind q).take .value within rfl
    rwa [List.append_assoc] at stands

end Scanner

/-! ## Single values -/

/-- A text that keeps its breaks: no break that is read as another one is written as it is. -/
def KeepsBreaks (d : Datum) : Prop :=
  ∀ s, d = .text s → '\x85' ∉ s.toList ∨ needsEscapes s.toList = true

instance : (d : Datum) → Decidable (KeepsBreaks d)
  | .text s => decidable_of_iff ('\x85' ∉ s.toList ∨ needsEscapes s.toList = true) <| by
    simp [KeepsBreaks]
  | .null | .bool _ | .int _ | .real _ | .time _ | .list _ | .map _ =>
    isTrue fun _ h => by cases h

/-- A scanner gets to the new line after what was written; `t` is on that line, before the blocks
that end there are closed. -/
def Past (text : List Char) (q : Pen) (m : Nat) (ks : List TokenKind) (is : List Int)
    (gets : Scanner → Prop) : Prop :=
  ∃ t : Scanner, t.Stands text (q.lineAt m) ks is ∧ t.mayStartKey = true ∧ gets (t.unwind m)

/-- After a sign, the scanner takes the tokens of a value that stands there. -/
def Reads (text : List Char) (n : Nat) (d : Datum) : Prop :=
  ∀ {column : Nat} {inMapping loose : Bool} {p : Pen} {ks : List TokenKind} {is : List Int}
    {s : Scanner} {m : Nat}, s.Stands text p ks (column :: is) → p.Signed column inMapping loose →
    (loose = false → s.mayStartKey = true) → column + 2 * n + 2 < lineWidth → m ≤ column →
    ((writeValue column inMapping p d).lineAt m).Within text →
    (((writeValue column inMapping p d).lineAt m).cursor text).Starts →
    Past text (writeValue column inMapping p d) m (ks ++ valueTokens loose d) (column :: is) s.Leads

namespace Scanner

variable {s t u v : Scanner}

theorem Stands.reach_gap (h : s.Stands text p ks (column :: is))
    (signed : p.Signed column inMapping loose) (within : p.gap.Within text)
    (starts : (p.gap.cursor text).Starts) :
    (s.atPlace (p.gap.cursor text)).Stands text p.gap ks (column :: is) ∧
      s.reach = .ok (s.atPlace (p.gap.cursor text)) := by
  have stands : (s.atPlace (p.gap.cursor text)).Stands text p.gap ks (column :: is) :=
    ⟨rfl, h.kinds, h.indents, h.level, rfl, h.going⟩
  refine ⟨stands, ?_⟩
  have past := signed.past
  rw [signed.gap] at within starts stands ⊢
  rw [reach_spaces (n := 1) h.cursor within starts h.keys]
  exact congrArg _ (stands.unwind_of_le (by omega))

theorem Stands.onLine (h : s.Stands text p ks is) (q : Pen) :
    (s.onLine (q.cursor text)).Stands text q ks is :=
  ⟨rfl, h.kinds, h.indents, h.level, rfl, h.going⟩

theorem Stands.push (h : s.Stands text p ks is) (kind : TokenKind) :
    (s.push kind).Stands text p (ks ++ [kind]) is :=
  ⟨h.cursor, by simp [Scanner.push, h.kinds], h.indents, h.level, h.keys, h.going⟩

theorem length_rest_lineAt (within : (q.lineAt m).Within text) (onward : p.Onward q) :
    ((q.lineAt m).cursor text).rest.length < (p.cursor text).rest.length := by
  refine Pen.length_rest_lt within (Nat.lt_of_le_of_lt onward.length_le ?_)
  simp only [Pen.lineAt, Pen.breakLine, Pen.write, List.length_append, List.length_cons]
  omega

/-- A value that is one token. -/
theorem Stands.leads_token (h : s.Stands text p ks (column :: is))
    (signed : p.Signed column inMapping loose) (start : p.gap.Within text)
    (starts : (p.gap.cursor text).Starts) (onward : p.gap.Onward q)
    (within : (q.lineAt m).Within text) {kind : TokenKind}
    (taken : ∃ t, (s.atPlace (p.gap.cursor text)).takeNext = .ok t ∧ t.done = false ∧
      t.reach = .ok ((((s.atPlace (p.gap.cursor text)).push kind).onLine
        ((q.lineAt m).cursor text)).unwind m)) :
    Past text q m (ks ++ [kind]) (column :: is) s.Leads := by
  obtain ⟨stands, reach⟩ := h.reach_gap signed start starts
  obtain ⟨t, take, going, reach'⟩ := taken
  have shorter := length_rest_lineAt within onward
  refine ⟨_, (stands.push kind).onLine (q.lineAt m), rfl, h.going, _, reach, ?_, ?_⟩
  · rw [h.cursor]
    exact Pen.length_rest_onward p.prints_gap.onward
  · refine .step take going reach' ?_ (.refl _)
    rw [cursor_unwind]
    exact shorter

end Scanner

/-! ## Values of one token -/

section Leaves

variable {n : Nat}

theorem reads_text {w : String} (keeps : KeepsBreaks (.text w)) : Reads text n (.text w) := by
  intro column inMapping loose p ks is s m stands signed may narrow le within starts
  have written := within.of_onward (Pen.onward_lineAt _ m)
  have onward := (puts_text (column + 2) false p w.toList).prints.onward
  have first := text_starts written
  obtain ⟨here, -⟩ := stands.reach_gap signed (written.of_onward onward) first
  have inner : column < p.gap.column := by
    rw [signed.gap]
    exact Nat.lt_succ_of_lt signed.past
  have token := text_value (by omega : 0 < column + 2) (by omega) (keeps w rfl) here.cursor
    here.level here.keys here.going (by rw [here.indent]; omega) (by rw [here.indent]; omega)
    (by rw [here.indent]; omega) within starts
  rw [String.ofList_toList] at token
  exact stands.leads_token signed (written.of_onward onward) first onward within token

/-- A value that is written as a word, such as a number. -/
theorem reads_word {d : Datum} {w : List Char} (word : IsWord w)
    (special : ∀ ch ∈ w, isSpecial ch = false) (sign : looksLikeSign w = false)
    (writes : ∀ column inMapping p, writeValue column inMapping p d = writePlain (column + 2) true p w)
    (tokens : ∀ loose, valueTokens loose d = [.scalar (String.ofList w) true]) : Reads text n d := by
  intro column inMapping loose p ks is s m stands signed may narrow le within starts
  rw [writes] at within starts ⊢
  rw [tokens]
  have written := within.of_onward (Pen.onward_lineAt _ m)
  have onward : p.gap.Onward (writePlain (column + 2) true p w) :=
    (puts_word word special p).prints.onward
  have first := worded_starts (.word word) written
  obtain ⟨here, -⟩ := stands.reach_gap signed (written.of_onward onward) first
  have inner : column < p.gap.column := by
    rw [signed.gap]
    exact Nat.lt_succ_of_lt signed.past
  refine stands.leads_token signed (written.of_onward onward) first onward within ?_
  rw [writePlain_eq word.pos] at within starts ⊢
  exact Scanner.plain_value (p := { p.gap with afterBlank := false, indented := false }) (.word word)
    sign (by omega) (by omega) here.cursor here.level here.keys here.going
    (by rw [here.indent]; exact_mod_cast inner) (by rw [here.indent]; omega) (by rw [here.indent]; omega)
    within starts

theorem reads_null : Reads text n .null :=
  reads_word isWord_null special_null (by decide) (fun _ _ _ => rfl) fun _ => rfl

theorem reads_int (k : Int) : Reads text n (.int k) :=
  reads_word (isWord_intText k) (special_intText k) (looksLikeSign_intText k) (fun _ _ _ => rfl)
    fun _ => rfl

/-- The brackets of a kind, and their tokens. -/
inductive Brackets : Char → Char → TokenKind → TokenKind → Prop
  | list : Brackets '[' ']' .flowSequenceStart .flowSequenceEnd
  | map : Brackets '\x7b' '\x7d' .flowMappingStart .flowMappingEnd

variable {opening closing : Char} {first last : TokenKind}

theorem Brackets.solid (h : Brackets opening closing first last) :
    isSolid opening = true ∧ isSolid closing = true ∧ opening ≠ '#' ∧ closing ≠ '#' := by
  cases h <;> exact ⟨rfl, rfl, by decide, by decide⟩

/-- The possible key of a level outside of brackets, at the place of a pen. -/
def Scanner.bracketKeys (s : Scanner) : List PossibleKey :=
  if s.mayStartKey then [s.possibleKey] else []

namespace Scanner

variable {s : Scanner}

/-- The scanner after the first bracket of a pair. -/
def opened (s : Scanner) (kind : TokenKind) : Scanner :=
  { ({ s with keys := s.bracketKeys }).take kind 1 with mayStartKey := true, level := s.level + 1 }

theorem Stands.takeNext_opening (stands : s.Stands text p ks is)
    (h : Brackets opening closing first last) (within : (p.write [opening]).Within text) :
    s.takeNext = .ok (s.opened first) ∧
      (s.opened first).cursor = (p.write [opening]).cursor text := by
  have next : s.cursor.next? = some opening := stands.cursor ▸ Pen.next?_write within
  have opens : s.takeAt opening = s.takeOpening first := by cases h <;> rfl
  have flat : isFlat opening = true := (Bool.and_eq_true_iff.mp h.solid.1).2
  constructor
  · rw [takeNext, next]
    show s.takeAt opening = _
    rw [opens, takeOpening, saveKey_nil stands.keys]
    rfl
  · show s.cursor.advance 1 = _
    rw [stands.cursor]
    exact Pen.advance_write within (by simpa using flat)

theorem Stands.of_mem_bracketKeys (stands : s.Stands text p ks is) (apart : s.indent ≠ p.column)
    {k : PossibleKey} (hk : k ∈ s.bracketKeys) :
    k.required = false ∧ k.level = 0 ∧ k.line = s.cursor.line ∧ k.index = s.cursor.index := by
  unfold bracketKeys at hk
  split at hk
  · rw [List.mem_singleton.mp hk]
    have : s.indent ≠ s.cursor.column := stands.cursor ▸ apart
    exact ⟨by simp [possibleKey, this], stands.level, rfl, rfl⟩
  · exact absurd hk List.not_mem_nil

/-- A possible key of the same line, not far before. -/
theorem isStale_eq_false {k : PossibleKey} {w : List Char} (flat : ∀ ch ∈ w, isBreak ch = false)
    (short : w.length ≤ 1024) (line : k.line = (p.cursor text).line)
    (index : k.index = (p.cursor text).index) (hs : s.cursor = (p.write w).cursor text) :
    s.isStale k = false := by
  have none : w.reverse.countP isBreak = 0 :=
    List.countP_eq_zero.mpr fun ch hc => by
      rw [flat ch (List.mem_reverse.mp hc)]
      exact Bool.false_ne_true
  have near : ¬ s.cursor.index - k.index > 1024 := by
    rw [hs, index]
    simp only [Pen.cursor, Pen.write, List.length_append, List.length_reverse]
    omega
  have same : k.line = s.cursor.line := by
    rw [hs, line]
    simp [Pen.cursor, Pen.write, List.countP_append, none]
  rw [isStale, same, bne_self_eq_false, Bool.false_or, decide_eq_false near]

theorem dropKey_apart (h : ∀ k ∈ s.keys, (k.level == s.level) = false) : s.dropKey = .ok s := by
  have none : s.keys.any (fun k => k.level == s.level && k.required) = false := by
    rw [List.any_eq_false]
    intro k hk
    rw [h k hk]
    exact Bool.false_ne_true
  have all : s.keys.filter (fun k => k.level != s.level) = s.keys :=
    List.filter_eq_self.mpr fun k hk => by rw [bne, h k hk]; rfl
  rw [dropKey, none, all]
  rfl

theorem Stands.runs_brackets (stands : s.Stands text p ks is)
    (h : Brackets opening closing first last) (apart : s.indent ≠ p.column)
    (within : (((p.write [opening]).write [closing]).lineAt m).Within text)
    (starts : ((((p.write [opening]).write [closing]).lineAt m).cursor text).Starts) :
    Past text ((p.write [opening]).write [closing]) m (ks ++ [first, last]) is s.Runs := by
  have written := within.of_onward (Pen.onward_lineAt _ m)
  obtain ⟨solidOpening, solidClosing, -, hashClosing⟩ := h.solid
  have flat {ch : Char} (solid : isSolid ch = true) : isFlat ch = true :=
    (Bool.and_eq_true_iff.mp solid).2
  obtain ⟨take, place⟩ := stands.takeNext_opening h written.before_write
  have next := Pen.next?_write written
  have level : (s.opened first).level = 1 := by
    show s.level + 1 = 1
    rw [stands.level]
    rfl
  have flow : (s.opened first).inFlow = true := by rw [Scanner.inFlow, level]; rfl
  have keys : ∀ k ∈ (s.opened first).keys, k.required = false ∧ k.level = 0 ∧
      k.line = s.cursor.line ∧ k.index = s.cursor.index := fun k hk =>
    stands.of_mem_bracketKeys apart hk
  have fresh : ∀ k ∈ (s.opened first).keys, (s.opened first).isStale k = false := fun k hk => by
    obtain ⟨-, -, line, index⟩ := keys k hk
    have plain := (Bool.and_eq_true_iff.mp (flat solidOpening)).1
    rw [Bool.not_eq_true'] at plain
    exact isStale_eq_false (w := [opening]) (by simpa using plain) (by simp)
      (stands.cursor ▸ line) (stands.cursor ▸ index) place
  have reach : (s.opened first).reach = .ok (s.opened first) := by
    rw [reach_here (place ▸ starts_of_isSolid next solidClosing hashClosing) fresh,
      unwind_of_inFlow flow]
  have drop : (s.opened first).dropKey = .ok (s.opened first) := by
    have apart : ∀ k ∈ (s.opened first).keys, (k.level == (s.opened first).level) = false := by
      intro k hk
      rw [level, (keys k hk).2.1]
      rfl
    exact dropKey_apart apart
  have take' : (s.opened first).takeNext = .ok { (s.opened first).take last 1 with
      mayStartKey := false, level := (s.opened first).level - 1 } := by
    have closes : (s.opened first).takeAt closing = (s.opened first).takeClosing last := by
      cases h <;> rfl
    rw [takeNext, place, next]
    show (s.opened first).takeAt closing = _
    rw [closes, takeClosing, drop]
    rfl
  let u : Scanner := { (s.opened first).take last 1 with
      mayStartKey := false, level := (s.opened first).level - 1 }
  have cursor : u.cursor = ((p.write [opening]).write [closing]).cursor text := by
    show (s.opened first).cursor.advance 1 = _
    rw [place]
    exact Pen.advance_write written (by simpa using flat solidClosing)
  have outside : u.level = 0 := by
    show (s.opened first).level - 1 = 0
    rw [level]
    rfl
  have optional : u.Optional := fun k hk => by
    obtain ⟨required, -, line, -⟩ := keys k hk
    refine ⟨required, ?_⟩
    rw [line, stands.cursor, cursor]
    exact Pen.line_onward ((Pen.onward_write _ _).trans (Pen.onward_write _ _))
  have reach' := reach_line cursor within starts (by simp [Scanner.inFlow, outside]) optional
  have ends : (u.onLine ((((p.write [opening]).write [closing]).lineAt m).cursor text)).Stands text
      (((p.write [opening]).write [closing]).lineAt m) (ks ++ [first, last]) is :=
    ⟨rfl, by simp [Scanner.onLine, u, Scanner.take, Scanner.push, opened, stands.kinds], stands.indents,
      outside, rfl, stands.going⟩
  have shorter : ((p.write [opening]).cursor text).rest.length < (p.cursor text).rest.length := by
    refine Pen.length_rest_lt written.before_write ?_
    simp [Pen.write]
  refine ⟨_, ends, rfl, .step take stands.going reach ?_ (.step take' stands.going reach' ?_ (.refl _))⟩
  · rw [place, stands.cursor]
    exact shorter
  · rw [cursor_unwind, place]
    exact length_rest_lineAt within (Pen.onward_write _ _)

end Scanner

/-- A pair of brackets. -/
theorem reads_brackets {d : Datum} (h : Brackets opening closing first last)
    (writes : ∀ column inMapping p, writeValue column inMapping p d = writeEmpty p opening closing)
    (tokens : ∀ loose, valueTokens loose d = [first, last]) : Reads text n d := by
  intro column inMapping loose p ks is s m stands signed may narrow le within starts
  rw [writes] at within starts ⊢
  rw [tokens]
  obtain ⟨solidOpening, -, hash, -⟩ := h.solid
  have closed : (writeEmpty p opening closing).Same ((p.gap.write [opening]).write [closing]) :=
    ((p.sign [opening] true false).close_same [closing] false).trans
      ((p.sign_same [opening] false).write [closing])
  have line : ((writeEmpty p opening closing).lineAt m).Same
      (((p.gap.write [opening]).write [closing]).lineAt m) := closed.lineAt m
  rw [line.within] at within
  rw [line.cursor] at starts
  have written := within.of_onward (Pen.onward_lineAt _ m)
  have start := written.before_write
  have first := starts_of_isSolid (Pen.next?_write start) solidOpening hash
  obtain ⟨here, reach⟩ := stands.reach_gap signed start.before_write first
  have inner : column < p.gap.column := by
    rw [signed.gap]
    exact Nat.lt_succ_of_lt signed.past
  obtain ⟨t, ends, may, runs⟩ := here.runs_brackets h (by rw [here.indent]; omega) within starts
  refine ⟨t, ends.same line.symm, may, stands.going, _, reach, ?_, runs⟩
  rw [stands.cursor]
  exact Pen.length_rest_onward p.prints_gap.onward

theorem reads_emptyList : Reads text n (.list []) :=
  reads_brackets .list (fun _ _ _ => rfl) fun _ => rfl

theorem reads_emptyMap : Reads text n (.map []) :=
  reads_brackets .map (fun _ _ _ => rfl) fun _ => rfl

end Leaves

/-! ## Items -/

variable {n : Nat}

theorem item_same (p : Pen) (ch : Char) :
    ((p.indentTo c).sign [ch] true true).Same ((p.indentTo c).write [ch]) := by
  have same := (p.indentTo c).sign_same [ch] true
  rwa [gap_indentTo] at same

theorem item_signed (p : Pen) (c : Nat) (ch : Char) (inMapping : Bool) :
    ((p.indentTo c).sign [ch] true true).Signed c inMapping false := by
  have column : ((p.indentTo c).sign [ch] true true).column = c + 1 := by
    rw [(item_same p ch).2]
    simp [Pen.write, Pen.column_indentTo]
  have indented : ((p.indentTo c).sign [ch] true true).indented = true := by
    show ((p.indentTo c).indented && true) = true
    rw [Pen.indented_indentTo]
    rfl
  exact ⟨rfl, by omega, by rw [indented, Bool.not_true, Bool.and_false], fun _ => ⟨indented, column⟩⟩

/-- A blank or a new line is written between a sign and the value after it. -/
theorem endsWord_value {d : Datum} (h : d.Plain n) (signed : p.Signed column inMapping loose)
    (within : (writeValue column inMapping p d).Within text) :
    endsWord (p.cursor text).next? = true := by
  have block : loose = false → (if inMapping && !p.indented then column else column + 2) = column + 2 :=
    fun hl => by rw [signed.loose_eq, hl, if_neg Bool.false_ne_true]
  cases h with
  | null =>
    exact signed.endsWord_gap (within.of_onward
      (@puts_word (column + 2) true _ isWord_null special_null p).prints.onward)
  | int k =>
    exact signed.endsWord_gap (within.of_onward
      (@puts_word (column + 2) true _ (isWord_intText k) (special_intText k) p).prints.onward)
  | text s =>
    exact signed.endsWord_gap (within.of_onward
      (puts_text (column + 2) false p s.toList).prints.onward)
  | @list n xs items =>
    cases xs with
    | nil => exact signed.endsWord_gap (within.of_onward (puts_empty rfl rfl p).prints.onward)
    | cons x xs =>
      exact signed.endsWord_indentTo block (within.of_onward
        (puts_plainItems items (List.cons_ne_nil x xs) _ p).prints.onward)
  | @record n es keys short values =>
    cases es with
    | nil => exact signed.endsWord_gap (within.of_onward (puts_empty rfl rfl p).prints.onward)
    | cons e es =>
      exact signed.endsWord_indentTo (fun _ => rfl) (within.of_onward
        (puts_plainEntries values (List.cons_ne_nil e es) (column + 2) p).prints.onward)

theorem length_rest_write (within : (p.write [ch]).Within text) :
    ((p.write [ch]).cursor text).rest.length < (p.cursor text).rest.length := by
  refine Pen.length_rest_lt within ?_
  simp [Pen.write]

namespace Scanner

variable {s t u v : Scanner}

/-- From the dash of its first item, the scanner takes the tokens of a sequence. -/
theorem Stands.runs_items {xs : List Datum} (plain : ∀ x ∈ xs, x.Plain n)
    (each : ∀ x ∈ xs, Reads text n x) (filled : xs ≠ [])
    (stands : s.Stands text (p.indentTo c) ks is) (may : s.mayStartKey = true)
    (opened : Opened .blockSequenceStart c ks is ks' (c :: is'))
    (narrow : c + 2 * n + 2 < lineWidth) (le : m ≤ c)
    (within : ((writeItems c p xs).lineAt m).Within text)
    (starts : (((writeItems c p xs).lineAt m).cursor text).Starts) :
    Past text (writeItems c p xs) m (ks' ++ itemTokens xs) (c :: is') s.Runs := by
  induction xs generalizing p ks ks' is s with
  | nil => exact absurd rfl filled
  | cons x xs ih =>
    obtain ⟨hx, hxs⟩ := List.forall_mem_cons.mp plain
    obtain ⟨readsFirst, readsRest⟩ := List.forall_mem_cons.mp each
    have signed := item_signed p c '-' false
    have value := (within.of_onward (Pen.onward_lineAt _ m)).of_onward (onward_items hxs c _)
    have puts := puts_value hx c false ((p.indentTo c).sign ['-'] true true)
    have dash := (item_same p '-').within.mp (value.of_onward puts.prints.onward)
    have apart := endsWord_value hx signed value
    rw [(item_same p '-').cursor] at apart
    obtain ⟨t, take, item, mayItem⟩ :=
      stands.takeNext_dash may (p.column_indentTo c) opened dash apart
    have shorter : t.cursor.rest.length < s.cursor.rest.length := by
      rw [item.cursor, stands.cursor]
      exact length_rest_write dash
    have item := item.same (item_same p '-').symm
    cases xs with
    | nil =>
      obtain ⟨u, ends, mayEnd, leads⟩ := readsFirst item signed (fun _ => mayItem) narrow le within starts
      refine ⟨u, ?_, mayEnd, leads.after take shorter⟩
      simpa [itemTokens, writeItems] using ends
    | cons y ys =>
      have next : Pen.indentTo _ c = Pen.lineAt _ c := Pen.indentTo_break (.inl puts.begun)
      have rest := within.of_onward (Pen.onward_lineAt _ m)
      have line := rest.of_onward (puts_plainItems hxs (List.cons_ne_nil y ys) c _).prints.onward
      have lineStarts := items_starts hxs (List.cons_ne_nil y ys) rest
      rw [next] at line lineStarts
      obtain ⟨u, ends, mayEnd, leads⟩ := readsFirst item signed (fun _ => mayItem) narrow
        (Nat.le_refl c) line lineStarts
      rw [ends.unwind_of_le (Int.le_refl _)] at leads
      rw [← next] at ends
      obtain ⟨v, last, mayLast, runs⟩ := ih hxs readsRest (List.cons_ne_nil y ys) ends mayEnd
        (.already is') within starts
      refine ⟨v, ?_, mayLast, (leads.after take shorter).trans runs⟩
      simpa [itemTokens, writeItems] using last

end Scanner

/-! ## Entries -/

/-- A key that stands before its colon, as it is written. -/
theorem simpleKey_line {k : String} (simple : isSimpleKey (.text k) = true) (c : Nat) (p : Pen) :
    ∃ w, (writeText (c + 2) true (p.indentTo c) k.toList).Same ((p.indentTo c).write w) ∧
      (∀ ch ∈ w, isBreak ch = false) ∧ 0 < w.length ∧ w.length ≤ 10 * k.length + 2 := by
  simp only [isSimpleKey, Bool.and_eq_true, Bool.not_eq_true'] at simple
  obtain ⟨w, same, flat, pos, short⟩ := writeText_line (c + 2) (p.indentTo c) simple.2
  rw [gap_indentTo] at same
  exact ⟨w, same, flat, pos, by rwa [String.length_toList] at short⟩

theorem key_signed (c : Nat) (p : Pen) (k : String) :
    (writeKey c p (.text k)).Signed c true (isSimpleKey (.text k)) := by
  cases simple : isSimpleKey (.text k) with
  | true =>
    obtain ⟨w, same, -, -⟩ := simpleKey_line simple c p
    have key : writeKey c p (.text k) =
        (writeText (c + 2) true (p.indentTo c) k.toList).sign [':'] false false := if_pos simple
    have past : (writeText (c + 2) true (p.indentTo c) k.toList).column = c + w.length := by
      rw [same.2]
      simp [Pen.write, Pen.column_indentTo]
    have column := (Pen.close_same (writeText (c + 2) true (p.indentTo c) k.toList) [':'] false).2
    rw [key]
    refine ⟨rfl, ?_, by simp [Pen.sign], fun h => absurd h (by simp)⟩
    rw [column]
    show c < (writeText (c + 2) true (p.indentTo c) k.toList).column + 1
    omega
  | false =>
    have key : writeKey c p (.text k) = ((writeText (c + 2) false
        ((p.indentTo c).sign ['?'] true true) k.toList).indentTo c).sign [':'] true true :=
      if_neg (by rw [simple]; exact Bool.false_ne_true)
    rw [key]
    exact item_signed _ c ':' true

namespace Scanner

variable {s t u v : Scanner}

theorem Opened.indent_le {kind : TokenKind} (opened : Opened kind c ks is ks' is')
    (stands : s.Stands text p ks is) : s.indent ≤ c := by
  cases opened with
  | already is => exact Int.le_of_eq stands.indent
  | fresh is lt => exact stands.indent ▸ Int.le_of_lt lt

/-- The scanner goes over a key with its colon: what it is led to from there it gets to. -/
def TakesKey (text : List Char) (q : Pen) (ks : List TokenKind) (is : List Int) (simple : Bool)
    (s : Scanner) : Prop :=
  ∃ t : Scanner, t.Stands text q ks is ∧ (simple = false → t.mayStartKey = true) ∧
    ∀ u, t.Leads u → s.Runs u

/-- A key that stands before its colon. -/
theorem Stands.takes_simpleKey {k : String} (simple : isSimpleKey (.text k) = true)
    (short : k.length ≤ Datum.keyLimit) (keeps : KeepsBreaks (.text k)) (narrow : c + 2 < lineWidth)
    (stands : s.Stands text (p.indentTo c) ks is) (may : s.mayStartKey = true)
    (opened : Opened .blockMappingStart c ks is ks' is')
    (within : (writeKey c p (.text k)).Within text)
    (apart : endsWord ((writeKey c p (.text k)).cursor text).next? = true) :
    s.TakesKey text (writeKey c p (.text k))
      (ks' ++ .key :: (valueTokens false (.text k) ++ [.value])) is' true := by
  obtain ⟨w, same, flat, pos, bound⟩ := simpleKey_line simple c p
  have key : writeKey c p (.text k) =
      (writeText (c + 2) true (p.indentTo c) k.toList).sign [':'] false false := if_pos simple
  have colon : (writeKey c p (.text k)).Same
      ((writeText (c + 2) true (p.indentTo c) k.toList).write [':']) :=
    key ▸ Pen.close_same _ [':'] false
  rw [colon.within] at within
  rw [colon.cursor] at apart
  have indent := opened.indent_le stands
  have column := p.column_indentTo c
  have gap := gap_indentTo p c
  have take := text_key (by omega : 0 < c + 2) narrow (keeps k rfl) (gap.symm ▸ stands.cursor)
    stands.level stands.keys (by rw [gap]; omega) (by omega) within apart
  rw [String.ofList_toList] at take
  generalize hW : writeText (c + 2) true (p.indentTo c) k.toList = W at *
  let taken := s.took (.scalar k (isPlain k.toList)) (W.cursor text) false
  have cursor : taken.cursor = ((p.indentTo c).write w).cursor text := same.cursor
  have fresh : ∀ k ∈ taken.keys, taken.isStale k = false := by
    intro k hk
    have hk : k ∈ if s.mayStartKey then [s.possibleKey] else [] := hk
    rw [if_pos may] at hk
    rw [List.mem_singleton.mp hk]
    have limit : Datum.keyLimit = 100 := rfl
    exact isStale_eq_false flat (by omega) (stands.cursor ▸ rfl) (stands.cursor ▸ rfl) cursor
  have reach : taken.reach = .ok taken := by
    have starts := starts_of_isSolid (Pen.next?_write within) rfl (by decide)
    rw [reach_here starts fresh]
    refine congrArg _ (Scanner.unwind_of_le ?_)
    have : taken.cursor.column = c + w.length := by
      rw [cursor]
      simp [Pen.cursor, Pen.write, column]
    rw [this]
    show s.indent ≤ _
    omega
  obtain ⟨t, take', value⟩ := stands.takeNext_value may opened column _ within apart
  refine ⟨t, value.same colon.symm, fun h => absurd h (by simp), fun u leads => ?_⟩
  refine .step take stands.going reach ?_ (leads.after take' ?_)
  · rw [cursor, stands.cursor]
    refine Pen.length_rest_lt (same.within.mp within.before_write) ?_
    simp only [Pen.write, List.length_append, List.length_reverse]
    omega
  · rw [value.cursor]
    exact length_rest_write within

/-- A key that takes more than a line, or is long or empty: it has a sign of its own. -/
theorem Stands.takes_markedKey {k : String} (simple : isSimpleKey (.text k) = false)
    (keeps : KeepsBreaks (.text k)) (narrow : c + 2 < lineWidth)
    (stands : s.Stands text (p.indentTo c) ks is) (may : s.mayStartKey = true)
    (opened : Opened .blockMappingStart c ks is ks' (c :: is'))
    (within : (writeKey c p (.text k)).Within text)
    (apart : endsWord ((writeKey c p (.text k)).cursor text).next? = true) :
    s.TakesKey text (writeKey c p (.text k))
      (ks' ++ .key :: (valueTokens false (.text k) ++ [.value])) (c :: is') false := by
  have key : writeKey c p (.text k) = ((writeValue c true
      ((p.indentTo c).sign ['?'] true true) (.text k)).indentTo c).sign [':'] true true :=
    if_neg (by rw [simple]; exact Bool.false_ne_true)
  have puts := puts_value (n := 0) (.text k) c true ((p.indentTo c).sign ['?'] true true)
  have signed := item_signed p c '?' true
  rw [key] at within apart ⊢
  have colonStarts := item_starts (show isSolid ':' = true from rfl) (by decide) within
  have line := (item_same _ ':').within.mp within
  have value := (within.of_onward (Pen.onward_sign _ _ _ _)).of_onward (Pen.onward_indentTo _ c)
  have asked := (item_same p '?').within.mp (value.of_onward puts.prints.onward)
  have apart' := endsWord_value (n := 0) (.text k) signed value
  rw [(item_same p '?').cursor] at apart'
  obtain ⟨t, take, item, mayItem⟩ :=
    stands.takeNext_question may (p.column_indentTo c) opened asked apart'
  have item := item.same (item_same p '?').symm
  have next := @Pen.indentTo_break _ c (.inl puts.begun)
  have start := line.before_write
  rw [next] at start colonStarts
  obtain ⟨u, ends, mayEnd, leads⟩ := reads_text (n := 0) keeps item signed (fun _ => mayItem)
    (by omega) (Nat.le_refl c) start colonStarts
  rw [ends.unwind_of_le (Int.le_refl _)] at leads
  rw [← next] at ends
  rw [(item_same _ ':').cursor] at apart
  obtain ⟨v, take', value', mayValue⟩ :=
    ends.takeNext_colon mayEnd (Pen.column_indentTo _ c) line apart
  refine ⟨v, ?_, fun _ => mayValue, fun w leads' => ?_⟩
  · simpa using value'.same (item_same _ ':').symm
  · refine (leads.after take ?_).trans (leads'.after take' ?_)
    · rw [item.cursor, stands.cursor, (item_same p '?').cursor]
      exact length_rest_write asked
    · rw [value'.cursor, ends.cursor]
      exact length_rest_write line

theorem Stands.takes_key {k : String} (short : k.length ≤ Datum.keyLimit)
    (keeps : KeepsBreaks (.text k)) (narrow : c + 2 < lineWidth)
    (stands : s.Stands text (p.indentTo c) ks is) (may : s.mayStartKey = true)
    (opened : Opened .blockMappingStart c ks is ks' (c :: is'))
    (within : (writeKey c p (.text k)).Within text)
    (apart : endsWord ((writeKey c p (.text k)).cursor text).next? = true) :
    s.TakesKey text (writeKey c p (.text k))
      (ks' ++ .key :: (valueTokens false (.text k) ++ [.value])) (c :: is')
      (isSimpleKey (.text k)) := by
  cases simple : isSimpleKey (.text k) with
  | true => exact stands.takes_simpleKey simple short keeps narrow may opened within apart
  | false => exact stands.takes_markedKey simple keeps narrow may opened within apart

/-- From its first key, the scanner takes the tokens of a mapping. -/
theorem Stands.runs_entries {es : List (String × Datum)} (plain : ∀ e ∈ es, e.2.Plain n)
    (short : ∀ e ∈ es, e.1.length ≤ Datum.keyLimit) (keeps : ∀ e ∈ es, KeepsBreaks (.text e.1))
    (each : ∀ e ∈ es, Reads text n e.2) (filled : es ≠ [])
    (stands : s.Stands text (p.indentTo c) ks is) (may : s.mayStartKey = true)
    (opened : Opened .blockMappingStart c ks is ks' (c :: is'))
    (narrow : c + 2 * n + 2 < lineWidth) (le : m ≤ c)
    (within : ((writeEntries c p (es.map fun e => (.text e.1, e.2))).lineAt m).Within text)
    (starts : (((writeEntries c p (es.map fun e => (.text e.1, e.2))).lineAt m).cursor text).Starts) :
    Past text (writeEntries c p (es.map fun e => (.text e.1, e.2))) m
      (ks' ++ entryTokens (es.map fun e => (.text e.1, e.2))) (c :: is') s.Runs := by
  induction es generalizing p ks ks' is s with
  | nil => exact absurd rfl filled
  | cons e es ih =>
    obtain ⟨he, hes⟩ := List.forall_mem_cons.mp plain
    obtain ⟨shortFirst, shortRest⟩ := List.forall_mem_cons.mp short
    obtain ⟨keepsFirst, keepsRest⟩ := List.forall_mem_cons.mp keeps
    obtain ⟨readsFirst, readsRest⟩ := List.forall_mem_cons.mp each
    have signed := key_signed c p e.1
    rw [List.map_cons, writeEntries_cons] at within starts ⊢
    have value := (within.of_onward (Pen.onward_lineAt _ m)).of_onward (onward_entries hes c _)
    have puts := puts_value he c true (writeKey c p (.text e.1))
    obtain ⟨t, key, mayKey, after⟩ := stands.takes_key shortFirst keepsFirst (by omega) may opened
      (value.of_onward puts.prints.onward) (endsWord_value he signed value)
    cases es with
    | nil =>
      obtain ⟨u, ends, mayEnd, leads⟩ := readsFirst key signed mayKey narrow le within starts
      refine ⟨u, ?_, mayEnd, after _ leads⟩
      simpa [entryTokens, writeEntries] using ends
    | cons e' es =>
      have next : Pen.indentTo _ c = Pen.lineAt _ c := Pen.indentTo_break (.inl puts.begun)
      have rest := within.of_onward (Pen.onward_lineAt _ m)
      have line := rest.of_onward (puts_plainEntries hes (List.cons_ne_nil e' es) c _).prints.onward
      have lineStarts := entries_starts hes (List.cons_ne_nil e' es) rest
      rw [next] at line lineStarts
      obtain ⟨u, ends, mayEnd, leads⟩ := readsFirst key signed mayKey narrow (Nat.le_refl c) line
        lineStarts
      rw [ends.unwind_of_le (Int.le_refl _)] at leads
      rw [← next] at ends
      obtain ⟨v, last, mayLast, runs⟩ := ih hes shortRest keepsRest readsRest
        (List.cons_ne_nil e' es) ends mayEnd (.already is') within starts
      refine ⟨v, ?_, mayLast, (after _ leads).trans runs⟩
      simpa [entryTokens] using last

end Scanner

/-! ## Values -/

theorem Past.mono {gets gets' : Scanner → Prop} (h : Past text q m ks is gets)
    (mono : ∀ u, gets u → gets' u) : Past text q m ks is gets' := by
  obtain ⟨t, ends, may, leads⟩ := h
  exact ⟨t, ends, may, mono _ leads⟩

/-- The new line is not within the innermost block. -/
theorem Past.close {gets : Scanner → Prop} {i j : Int} (h : Past text q m ks (i :: j :: is) gets)
    (lt : m < i) : Past text q m (ks ++ [.blockEnd]) (j :: is) gets := by
  obtain ⟨t, ends, may, leads⟩ := h
  exact ⟨t.closeBlock, ends.closeBlock, may, ends.unwind_closeBlock lt ▸ leads⟩

/-- A block is the value after a sign: the scanner goes to its first token. -/
theorem Scanner.Stands.reach_block {s : Scanner} (h : s.Stands text p ks (column :: is))
    (signed : p.Signed column inMapping loose) (may : loose = false → s.mayStartKey = true)
    (hc : loose = false → c = column + 2) (le : column ≤ c) (within : (p.indentTo c).Within text)
    (starts : ((p.indentTo c).cursor text).Starts) :
    ∃ t : Scanner, t.Stands text (p.indentTo c) ks (column :: is) ∧ t.mayStartKey = true ∧
      ∀ u, t.Runs u → s.Leads u := by
  have reached {t : Scanner} (stands : t.Stands text (p.indentTo c) ks (column :: is))
      (reach : s.reach = .ok t) (u : Scanner) (runs : t.Runs u) : s.Leads u := by
    refine ⟨h.going, t, reach, ?_, runs⟩
    rw [stands.cursor, h.cursor]
    exact Pen.length_rest_onward (p.onward_indentTo c)
  cases hl : loose with
  | true =>
    have line := signed.indentTo_loose hl c
    have stands := h.onLine (p.indentTo c)
    refine ⟨_, stands, rfl, reached stands ?_⟩
    rw [line] at within starts stands ⊢
    rw [reach_line h.cursor within starts h.inFlow (by simp [Optional, h.keys]),
      stands.unwind_of_le (by omega)]
  | false =>
    obtain rfl := hc hl
    have gap : (p.indentTo (column + 2)).Same p.gap := by
      rw [signed.indentTo_inline hl, signed.gap]
      exact ⟨rfl, rfl⟩
    obtain ⟨stands, reach⟩ := h.reach_gap signed (gap.within.mp within) (gap.cursor ▸ starts)
    exact ⟨_, stands.same gap.symm, may hl, reached (stands.same gap.symm) reach⟩

theorem reads_items {xs : List Datum} (plain : ∀ x ∈ xs, x.Plain n)
    (each : ∀ x ∈ xs, Reads text n x) : Reads text (n + 1) (.list xs) := by
  cases xs with
  | nil => exact reads_emptyList
  | cons x xs =>
    intro column inMapping loose p ks is s m stands signed may narrow le within starts
    have column_eq : (if inMapping && !p.indented then column else column + 2) =
        if loose then column else column + 2 := by rw [signed.loose_eq]
    have writes : writeValue column inMapping p (.list (x :: xs)) =
        writeItems (if loose then column else column + 2) p (x :: xs) := by
      rw [writeValue, column_eq]
    rw [writes] at within starts ⊢
    generalize hc : (if loose then column else column + 2) = c at within starts ⊢
    have filled := List.cons_ne_nil x xs
    have written := within.of_onward (Pen.onward_lineAt _ m)
    have start := written.of_onward (puts_plainItems plain filled c p).prints.onward
    have deep : column ≤ c ∧ c ≤ column + 2 := by
      subst hc
      split <;> omega
    obtain ⟨t, block, mayBlock, leads⟩ := stands.reach_block signed may
      (fun hl => by rw [← hc, hl, if_neg Bool.false_ne_true]) deep.1 start
      (items_starts plain filled written)
    cases loose with
    | true =>
      obtain rfl : column = c := hc
      exact (block.runs_items plain each filled mayBlock (.already is) (by omega) le within
        starts).mono leads
    | false =>
      obtain rfl : column + 2 = c := hc
      have past := (block.runs_items plain each filled mayBlock (.fresh is (by omega)) (by omega)
        (by omega) within starts).close (by omega)
      simpa [valueTokens] using past.mono leads

theorem reads_entries {es : List (String × Datum)} (plain : ∀ e ∈ es, e.2.Plain n)
    (short : ∀ e ∈ es, e.1.length ≤ Datum.keyLimit) (keeps : ∀ e ∈ es, KeepsBreaks (.text e.1))
    (each : ∀ e ∈ es, Reads text n e.2) : Reads text (n + 1) (.record es) := by
  cases es with
  | nil => exact reads_emptyMap
  | cons e es =>
    intro column inMapping loose p ks is s m stands signed may narrow le within starts
    have filled := List.cons_ne_nil e es
    have written := within.of_onward (Pen.onward_lineAt _ m)
    have start := written.of_onward (puts_plainEntries plain filled (column + 2) p).prints.onward
    obtain ⟨t, block, mayBlock, leads⟩ := stands.reach_block signed may (fun _ => rfl) (by omega) start
      (entries_starts plain filled written)
    have past := (block.runs_entries plain short keeps each filled mayBlock (.fresh is (by omega))
      (by omega) (by omega) within starts).close (by omega)
    simpa [valueTokens, Datum.record, writeValue] using past.mono leads

/-- Every value of plain data whose texts keep their breaks is read as its tokens. -/
theorem reads_value {d : Datum} (h : d.Plain n) (keeps : ∀ e ∈ d.leaves, KeepsBreaks e) :
    Reads text n d := by
  induction h with
  | null => exact reads_null
  | int k => exact reads_int k
  | text s => exact reads_text (keeps _ (by simp))
  | list items ih =>
    exact reads_items items fun x hx => ih x hx (Datum.leaves_of_mem_list keeps hx)
  | record keys short values ih =>
    exact reads_entries values short (fun e he => (Datum.leaves_of_mem_record keeps he).1)
      fun e he => ih e he (Datum.leaves_of_mem_record keeps he).2

/-! ## Whole texts -/

/-- Where everything was read, the scanner closes the last block and ends. -/
theorem Scanner.Stands.takeNext_end {s : Scanner} (h : s.Stands text p ks [0, -1])
    (done : (p.cursor text).rest = []) :
    ∃ t, s.takeNext = .ok t ∧ t.done = true ∧
      t.queue.map (·.kind) = ks ++ [.blockEnd, .streamEnd] := by
  have closed := h.closeBlock
  have unwind : s.unwind (-1) = s.closeBlock := by
    rw [h.unwind_closeBlock (by decide), closed.unwind_of_le (Int.le_refl _)]
  have next : s.cursor.next? = none := by rw [h.cursor, Cursor.next?, done]; rfl
  refine ⟨{ s.closeBlock.push .streamEnd with mayStartKey := false, keys := [], done := true }, ?_,
    rfl, ?_⟩
  · rw [takeNext, next]
    show s.takeEnd = _
    rw [takeEnd, unwind, dropKey_nil closed.keys]
    rfl
  · simp [Scanner.push, closed.kinds]

theorem write_entries {es : List (Datum × Datum)} (filled : es ≠ [])
    (begun : (writeEntries 0 .start es).indented = false) :
    (write es).toList = ((writeEntries 0 .start es).lineAt 0).reversed.reverse := by
  have some : es.isEmpty = false := by simpa using filled
  rw [write, some, if_neg Bool.false_ne_true, Pen.indentTo_break (.inl begun), Pen.text,
    String.toList_ofList]

section Whole

variable {es : List (String × Datum)} (plain : ∀ e ∈ es, e.2.Plain n) (filled : es ≠ [])
include plain filled

theorem printed_write :
    ∀ ch ∈ (write (es.map fun e => (.text e.1, e.2))).toList, isSpecial ch = false := by
  have puts := (puts_plainEntries plain filled 0 .start).of_indentTo
  rw [write_entries (by simpa using filled) puts.begun]
  obtain ⟨w, written, printed⟩ := puts.prints.trans (Pen.prints_indentTo _ 0)
  rw [Pen.indentTo_break (.inl puts.begun)] at written
  rw [written]
  intro ch hc
  exact printed ch (by simpa [Pen.start] using hc)

/-- The text of plain data is cut into their tokens. -/
theorem tokens_write (short : ∀ e ∈ es, e.1.length ≤ Datum.keyLimit)
    (keeps : ∀ d ∈ (Datum.record es).leaves, KeepsBreaks d) (narrow : 2 * n + 2 < lineWidth) :
    ∃ queue, Tokens.ofText (write (es.map fun e => (.text e.1, e.2))).toList = ⟨queue, none⟩ ∧
      queue.map (·.kind) = valueTokens false (.record es) ++ [.streamEnd] := by
  have printed := printed_write plain filled
  have puts := (puts_plainEntries plain filled 0 .start).of_indentTo
  have written := write_entries (by simpa using filled) puts.begun
  generalize (write (es.map fun e => (.text e.1, e.2))).toList = text at printed written ⊢
  generalize hq : writeEntries 0 .start (es.map fun e => (.text e.1, e.2)) = q at written puts
  have within : (q.lineAt 0).Within text := written ▸ List.prefix_refl _
  have read : ((q.lineAt 0).cursor text).rest = [] := by
    rw [written]
    exact List.drop_of_length_le (Nat.le_of_eq List.length_reverse)
  have starts : ((q.lineAt 0).cursor text).Starts := by
    intro ch hc
    rw [Cursor.next?, read] at hc
    exact absurd hc (by simp)
  subst hq
  have stands : (Scanner.start text).Stands text (Pen.start.indentTo 0) [] [-1] :=
    ⟨rfl, rfl, rfl, rfl, rfl, rfl⟩
  have first := entries_starts plain filled (within.of_onward (Pen.onward_lineAt _ 0))
  obtain ⟨t, ends, -, runs⟩ := stands.runs_entries plain short
    (fun e he => (Datum.leaves_of_mem_record keeps he).1)
    (fun e he => reads_value (plain e he) (Datum.leaves_of_mem_record keeps he).2) filled rfl
    (.fresh [] (by decide)) (by omega) (Nat.le_refl 0) within starts
  rw [ends.unwind_of_le (Int.le_refl _)] at runs
  obtain ⟨last, take, done, kinds⟩ := ends.takeNext_end read
  have noMark : ¬ text.head? = some '\ufeff' := fun mark =>
    absurd (printed _ (List.mem_of_mem_head? mark)) (by decide)
  have reach : (Scanner.start text).reach = .ok (Scanner.start text) := by
    rw [Scanner.reach_here first (by simp [Scanner.start])]
    rfl
  refine ⟨last.queue, ?_, ?_⟩
  · have scanned := Scanner.tokens_of_runs runs take done rfl reach
      (Nat.lt_succ_self (text.length + 1)) 0
    simpa [Tokens.ofText, noMark] using scanned
  · rw [kinds, Datum.record, valueTokens_map (by simpa using filled)]
    simp

end Whole

end Neogrammar.Yaml
