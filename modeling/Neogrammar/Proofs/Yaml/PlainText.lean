import Neogrammar.Proofs.Yaml.Pieces
import Neogrammar.Proofs.Yaml.Place

/-!
# Plain texts

A plain text consists of words with spaces between them. Where a line is folded at a single space,
the reader puts the space back; so it reads the text that was written, up to what ends it.
-/
namespace Neogrammar.Yaml

/-- A word of a plain text: no sign stands at its ends. -/
structure IsWord (w : List Char) : Prop where
  pos : w ≠ []
  solid : ∀ c ∈ w, isSolid c = true
  head : w.head? ≠ some '#'
  last : w.getLast? ≠ some ':'

/-- Words with spaces between them. -/
inductive Worded : List Char → Prop
  | word {w : List Char} (word : IsWord w) : Worded w
  | gap {w s : List Char} {n : Nat} (word : IsWord w) (pos : 0 < n) (rest : Worded s) :
      Worded (w ++ (List.replicate n ' ' ++ s))

theorem holdsSign_spaces (before : Char) (n : Nat) (s : List Char) :
    holdsSign before (List.replicate (n + 1) ' ' ++ s) = holdsSign ' ' s := by
  induction n generalizing before with
  | zero => simp [holdsSign]
  | succ n ih =>
    rw [List.replicate_succ, List.cons_append, holdsSign, ih]
    simp

theorem Cut.worded {s : List Char} (h : Cut s) {u : List Char}
    (solid : ∀ c ∈ u, isSolid c = true) (head : u.head? ≠ some '#')
    (last : u.getLast? = some ':' → setsApart s.head? = false)
    (special : ∀ c ∈ s, isSpecial c = false) (lineEnd : ∀ c ∈ s, isLineEnd c = false)
    (sign : holdsSign (u.getLastD ' ') s = false) (ends : s.getLast? ≠ some ' ')
    (start : u = [] → s ≠ [] ∧ s.head? ≠ some ' ') : Worded (u ++ s) := by
  induction h generalizing u with
  | nil =>
    rw [List.append_nil]
    refine .word ⟨fun hu => (start hu).1 rfl, solid, head, fun colon => ?_⟩
    exact absurd (last colon) (by decide)
  | @char c s space line rest ih =>
    obtain ⟨hc, hs⟩ := List.forall_mem_cons.mp special
    rw [holdsSign, Bool.or_eq_false_iff, Bool.or_eq_false_iff] at sign
    rw [List.append_cons]
    refine ih ?_ ?_ ?_ hs (fun d hd => lineEnd d (List.mem_cons_of_mem c hd)) ?_ ?_ (by simp)
    · intro d hd
      rcases List.mem_append.mp hd with hd | hd
      · exact solid d hd
      · rw [List.mem_singleton.mp hd]
        exact isSolid_of_not_isSpecial hc line space
    · cases u with
      | nil =>
        intro hash
        have : c = '#' := by simpa using hash
        simp [this, setsApart] at sign
      | cons d u => simpa using head
    · intro colon
      have : c = ':' := by simpa using colon
      simpa [this] using sign.1.1
    · simpa using sign.2
    · cases s with
      | nil => simp
      | cons d s => simpa [List.getLast?_cons_cons] using ends
  | @spaces n s pos apart rest ih =>
    obtain ⟨n, rfl⟩ := Nat.exists_eq_add_of_lt pos
    rw [Nat.zero_add] at *
    have word : IsWord u := by
      refine ⟨fun hu => ?_, solid, head, fun colon => ?_⟩
      · exact (start hu).2 (by simp [List.replicate_succ])
      · exact absurd (last colon) (by simp [List.replicate_succ, setsApart])
    have filled : s ≠ [] := by
      rintro rfl
      exact ends (by simp [List.getLast?_replicate])
    refine .gap word pos (ih (u := []) (by simp) (by simp) (by simp) ?_ ?_ ?_ ?_
      fun _ => ⟨filled, apart⟩)
    · exact fun c hc => special c (List.mem_append_right _ hc)
    · exact fun c hc => lineEnd c (List.mem_append_right _ hc)
    · rw [holdsSign_spaces] at sign
      simpa using sign
    · simpa [List.getLast?_append, List.getLast?_eq_some_getLast filled] using ends
  | @breaks bs s pos each apart rest ih =>
    obtain ⟨b, bs, rfl⟩ := List.exists_cons_of_ne_nil pos
    exact absurd (lineEnd b (by simp)) (by simp [each b List.mem_cons_self])

/-- A text that is written plain consists of words. -/
theorem worded_of_isPlain {s : List Char} (h : isPlain s = true) : Worded s := by
  simp only [isPlain, Bool.and_eq_true, Bool.not_eq_true', beq_iff_eq, bne_iff_ne, needsEscapes,
    Bool.or_eq_false_iff, List.any_eq_false, Bool.not_eq_true] at h
  obtain ⟨⟨⟨⟨⟨kind, lineEnd⟩, ⟨special, -⟩, -⟩, sign⟩, head⟩, last⟩ := h
  cases s with
  | nil => exact absurd kind (by decide)
  | cons c s =>
    simp only [looksLikeSign, Bool.or_eq_false_iff, opensSign] at sign
    obtain ⟨-, ⟨first, second⟩, more⟩ := sign
    have hash : c ≠ '#' := by
      rintro rfl
      simp at first
    refine (cut (c :: s)).worded (u := []) (by simp) (by simp) (by simp) special lineEnd ?_ last
      fun _ => ⟨List.cons_ne_nil c s, head⟩
    rw [holdsSign, Bool.or_eq_false_iff, Bool.or_eq_false_iff]
    refine ⟨⟨?_, by simp [hash]⟩, more⟩
    by_cases colon : c = ':'
    · simpa [colon] using second
    · simp [colon]

/-! ## Writing words -/

section Writing

variable {column : Nat} {mayFold : Bool} {p : Pen}

theorem Pen.onward_writePlainPiece (p : Pen) (piece : Piece) :
    p.Onward (writePlainPiece column mayFold p piece) := by
  cases piece with
  | spaces n =>
    dsimp only [writePlainPiece]
    split
    · exact onward_foldTo p column
    · exact onward_write p _
  | breaks s => exact (onward_writeBreaks p s).trans (onward_foldTo _ column)
  | quote => exact onward_write p _
  | word s => exact onward_write p s

theorem Pen.onward_plainPieces (p : Pen) (ps : List Piece) :
    p.Onward (ps.foldl (writePlainPiece column mayFold) p) := by
  induction ps generalizing p with
  | nil => exact .refl p
  | cons piece ps ih => exact (onward_writePlainPiece p piece).trans (ih _)

theorem plainPieces_word {w : List Char} (h : ∀ c ∈ w, isSolid c = true) (s : List Char) (p : Pen) :
    (pieces (w ++ s)).foldl (writePlainPiece column mayFold) p =
      (pieces s).foldl (writePlainPiece column mayFold) (p.write w) := by
  induction w generalizing p with
  | nil => rfl
  | cons c w ih =>
    obtain ⟨hc, hw⟩ := List.forall_mem_cons.mp h
    have space : c ≠ ' ' := by
      rintro rfl
      exact absurd hc (by decide)
    have lineEnd : isLineEnd c = false := by
      simp only [isSolid, isFlat, isBreak, Bool.and_eq_true, Bool.not_eq_true',
        Bool.or_eq_false_iff] at hc
      simp [isLineEnd, hc]
    rw [List.cons_append, pieces_cons, Pen.write_cons, ← ih hw]
    rcases addPiece_char space lineEnd (pieces (w ++ s)) with h | ⟨-, t, rest, before, after⟩
    · rw [h, List.foldl_cons]
      congr 1
      split
      · next quote => rw [quote]; rfl
      · rfl
    · rw [after, before, List.foldl_cons, List.foldl_cons]
      congr 1
      exact Pen.write_cons p c t

end Writing

/-! ## Reading words -/

theorem plainLength_word {w rest : List Char} (h : IsWord w)
    (stop : plainLength false rest = 0) : plainLength false (w ++ rest) = w.length := by
  obtain ⟨-, solid, -, last⟩ := h
  induction w with
  | nil => exact stop
  | cons c w ih =>
    obtain ⟨hc, hw⟩ := List.forall_mem_cons.mp solid
    have goes : plainEnds false c (w ++ rest).head? = false := by
      simp only [isSolid, isFlat, Bool.and_eq_true, Bool.not_eq_true'] at hc
      have colon : c = ':' → endsWord (w ++ rest).head? = false := by
        rintro rfl
        cases w with
        | nil => exact absurd rfl last
        | cons d w =>
          have := hw d List.mem_cons_self
          simp only [isSolid, isFlat, isBlank, Bool.and_eq_true, Bool.not_eq_true',
            Bool.or_eq_false_iff] at this
          simp [endsWord, this]
      simp only [plainEnds, hc, Bool.false_and, Bool.or_false, Bool.false_or]
      by_cases h : c = ':'
      · rw [colon h, Bool.and_false]
      · simp [h]
    rw [List.cons_append, plainLength, goes, if_neg Bool.false_ne_true, List.length_cons]
    cases w with
    | nil => rw [List.nil_append, stop]; rfl
    | cons d w => rw [ih hw (by simpa [List.getLast?_cons_cons] using last)]

section Reading

variable {text : List Char} {p q : Pen} {column : Nat} {mayFold : Bool}

/-- The breaks of a plain text and the spaces after them are passed over. -/
theorem plainBreaks_spaces {n fuel : Nat} (h : (p.write (List.replicate n ' ')).Within text)
    (rests : ((p.write (List.replicate n ' ')).cursor text).Rests) (hf : n < fuel)
    (breaks : List Char) :
    plainBreaks fuel (p.cursor text) breaks =
      (some breaks, (p.write (List.replicate n ' ')).cursor text) := by
  induction n generalizing p fuel with
  | zero =>
    obtain ⟨fuel, rfl⟩ := Nat.exists_eq_add_of_lt hf
    have space : (p.cursor text).next? ≠ some ' ' := fun hs => (rests ' ' hs).1 rfl
    have none : (p.cursor text).takeBreak? = none := rests.not_break
    simp [plainBreaks, space, none]
  | succ n ih =>
    cases fuel with
    | zero => exact absurd hf (Nat.not_lt_zero _)
    | succ fuel =>
      rw [List.replicate_succ, Pen.write_cons] at h rests ⊢
      rw [plainBreaks, Pen.next?_write h.before_write, Pen.step_write h.before_write rfl]
      simpa using ih h rests (Nat.lt_of_succ_lt_succ hf)

/-- Spaces between words stay on the line. -/
theorem plainGap_spaces {n : Nat} (h : (p.write (List.replicate n ' ')).Within text)
    (rests : ((p.write (List.replicate n ' ')).cursor text).Rests) :
    plainGap (p.cursor text) =
      (some (List.replicate n ' '), (p.write (List.replicate n ' ')).cursor text, false) := by
  have each : ∀ c ∈ List.replicate n ' ', isSpace c = true := fun c hc => by
    rw [List.eq_of_mem_replicate hc]
    rfl
  rw [plainGap, Pen.span_write h (Pen.flat_spaces n) each rests.not_space]
  simp only [rests.not_break]

/-- A new line after a word. At its start a mark between documents may stand. -/
theorem plainGap_line (h : (p.lineAt column).Within text)
    (rests : ((p.lineAt column).cursor text).Rests) :
    ∃ gap, plainGap (p.cursor text) = (gap, (p.lineAt column).cursor text, true) ∧
      (0 < column → gap = some [' ']) := by
  have line : (p.breakLine '\n').Within text := h.before_write
  have stop : ∀ ch ∈ (p.cursor text).next?, isSpace ch = false := by
    rw [Pen.next?_breakLine line]
    rintro ch ⟨⟩
    rfl
  have fuel : column < ((p.breakLine '\n').cursor text).rest.length + 1 := by
    rw [Pen.rest_write h, List.length_append, List.length_replicate]
    omega
  have skip := plainBreaks_spaces h rests fuel []
  rw [plainGap, Cursor.span_stop stop]
  simp only [Pen.takeBreak?_breakLine line (.inl rfl)]
  by_cases marker : ((p.breakLine '\n').cursor text).atMarker = true
  · cases column with
    | zero => exact ⟨none, by rw [if_pos marker]; rfl, fun h => absurd h (Nat.lt_irrefl 0)⟩
    | succ n =>
      rw [Pen.lineAt, List.replicate_succ] at h
      exact absurd marker (by simp [Cursor.not_atMarker (Pen.next?_write h) (by decide) (by decide)])
  · refine ⟨some [' '], ?_, fun _ => rfl⟩
    rw [if_neg marker, skip]
    rfl

theorem IsWord.first {w : List Char} (h : IsWord w) :
    ∃ c rest, w = c :: rest ∧ isSolid c = true ∧ c ≠ '#' := by
  obtain ⟨c, rest, rfl⟩ := List.exists_cons_of_ne_nil h.pos
  exact ⟨c, rest, rfl, h.solid c List.mem_cons_self, by simpa using h.head⟩

theorem Worded.first {s : List Char} (h : Worded s) :
    ∃ w rest, s = w ++ rest ∧ IsWord w := by
  cases h with
  | word word => exact ⟨s, [], (List.append_nil s).symm, word⟩
  | gap word => exact ⟨_, _, rfl, word⟩

/-- Where a text of words is written, its first character comes next. -/
theorem Worded.next? {s : List Char} (h : Worded s)
    (within : ((pieces s).foldl (writePlainPiece column mayFold) p).Within text) :
    ∃ c, s.head? = some c ∧ (p.cursor text).next? = some c ∧ isSolid c = true ∧ c ≠ '#' := by
  obtain ⟨w, rest, rfl, word⟩ := h.first
  obtain ⟨c, w, rfl, solid, hash⟩ := word.first
  rw [plainPieces_word word.solid] at within
  exact ⟨c, rfl, Pen.next?_write (within.of_onward (Pen.onward_plainPieces _ _)), solid, hash⟩

theorem Worded.rests {s : List Char} (h : Worded s)
    (within : ((pieces s).foldl (writePlainPiece column mayFold) p).Within text) :
    (p.cursor text).Rests := by
  obtain ⟨c, -, next, solid, -⟩ := h.next? within
  intro ch hc
  rw [next] at hc
  obtain rfl : c = ch := Option.some.inj hc
  simp only [isSolid, isFlat, isBlank, Bool.and_eq_true, Bool.not_eq_true', Bool.or_eq_false_iff,
    beq_eq_false_iff_ne] at solid
  exact ⟨solid.1.1, solid.2.1⟩

theorem Worded.head?_ne_space {s : List Char} (h : Worded s) : s.head? ≠ some ' ' := by
  obtain ⟨w, rest, rfl, word⟩ := h.first
  obtain ⟨c, w, rfl, solid, -⟩ := word.first
  rw [List.cons_append, List.head?_cons, ne_eq, Option.some.injEq]
  rintro rfl
  exact absurd solid (by decide)

/-- One round of reading a plain text: a word, and either its end or what follows a gap. -/
theorem readPlain_word {w : List Char} (word : IsWord w) (within : (p.write w).Within text)
    (stop : plainLength false ((p.write w).cursor text).rest = 0) {indent : Int} {fuel : Nat}
    (before : List Char) (crossed : Bool) {gap : Option (List Char)} {after : Cursor}
    {crossedAfter : Bool} (hg : plainGap ((p.write w).cursor text) = (gap, after, crossedAfter)) :
    readPlain false indent (fuel + 1) before crossed (p.cursor text) =
      if gap.getD [] = [] ∨ after.next? = some '#' ∨ (after.column : Int) < indent then
        ⟨before ++ w, after, crossedAfter⟩
      else
        let more := readPlain false indent fuel (gap.getD []) crossedAfter after
        { more with text := before ++ w ++ more.text } := by
  obtain ⟨c, w, rfl, solid, hash⟩ := word.first
  have next : (p.cursor text).next? = some c := Pen.next?_write within
  have flat : ∀ d ∈ c :: w, isFlat d = true := fun d hd =>
    (Bool.and_eq_true_iff.mp (word.solid d hd)).2
  have length : plainLength false (p.cursor text).rest = (c :: w).length := by
    rw [Pen.rest_write within, plainLength_word word stop]
  have taken : (p.cursor text).rest.take (c :: w).length = c :: w := by
    rw [Pen.rest_write within, List.take_left]
  have going : ¬ ((p.cursor text).next? == some '#' || (c :: w).length == 0) = true := by
    rw [next]
    simpa using hash
  rw [readPlain, length, if_neg going, taken, Pen.advance_write within flat, hg]
  cases gap with
  | none => simp
  | some gap => cases gap with
    | nil => simp
    | cons g gap =>
      by_cases h : after.next? = some '#' ∨ (after.column : Int) < indent
      · simp [h]
      · simp [not_or.mp h]

/-- What is read between two words is the spaces that were to be written there, folded or not. -/
theorem plainGap_pieces {n : Nat} (hn : 0 < n) (pos : 0 < column) (narrow : column ≤ lineWidth)
    (within : (writePlainPiece column mayFold p (.spaces n)).Within text)
    (rests : ((writePlainPiece column mayFold p (.spaces n)).cursor text).Rests) :
    plainLength false (p.cursor text).rest = 0 ∧
      (∃ crossed, plainGap (p.cursor text) = (some (List.replicate n ' '),
        (writePlainPiece column mayFold p (.spaces n)).cursor text, crossed)) ∧
      min column (p.column + 1) ≤ (writePlainPiece column mayFold p (.spaces n)).column := by
  dsimp only [writePlainPiece] at within rests ⊢
  split at within
  · next fold =>
    rw [if_pos fold] at rests ⊢
    simp only [Bool.and_eq_true, beq_iff_eq, decide_eq_true_eq] at fold
    have line : p.indentTo column = p.lineAt column :=
      Pen.indentTo_break (.inr (Nat.lt_of_le_of_lt narrow fold.1.2))
    have same : (p.foldTo column).cursor text = (p.lineAt column).cursor text := by
      rw [← line]
      rfl
    have within : (p.lineAt column).Within text := line ▸ within
    rw [same] at rests ⊢
    obtain ⟨gap, hg, spaces⟩ := plainGap_line within rests
    refine ⟨?_, ⟨true, by rw [hg, spaces pos, fold.1.1]; rfl⟩, ?_⟩
    · rw [Pen.rest_breakLine within.before_write]
      rfl
    · have reached : ((p.lineAt column).cursor text).column = column := Pen.column_lineAt p column
      rw [Pen.foldTo, line]
      exact Nat.le_trans (Nat.min_le_left _ _) (Nat.le_of_eq reached.symm)
  · next stay =>
    rw [if_neg stay] at rests ⊢
    refine ⟨?_, ⟨false, plainGap_spaces within rests⟩, ?_⟩
    · obtain ⟨n, rfl⟩ := Nat.exists_eq_succ_of_ne_zero (Nat.pos_iff_ne_zero.mp hn)
      rw [Pen.rest_write within]
      rfl
    · simp only [Pen.write, List.length_replicate]
      omega

/-- A plain text that is written word by word, folded at single spaces, is read back. What comes
after it must end it. -/
theorem readPlain_pieces {s : List Char} (h : Worded s) (pos : 0 < column)
    (narrow : column ≤ lineWidth)
    (within : ((pieces s).foldl (writePlainPiece column mayFold) p).Within text)
    {indent : Int} (deep : indent ≤ column) (start : indent ≤ p.column + 1)
    (stop : plainLength false
      (((pieces s).foldl (writePlainPiece column mayFold) p).cursor text).rest = 0)
    {gap : Option (List Char)} {after : Cursor} {crossedAfter : Bool}
    (hg : plainGap (((pieces s).foldl (writePlainPiece column mayFold) p).cursor text) =
      (gap, after, crossedAfter))
    (ends : gap.getD [] = [] ∨ after.next? = some '#' ∨ (after.column : Int) < indent)
    {fuel : Nat} (hf : (p.cursor text).rest.length < fuel) (before : List Char) (crossed : Bool) :
    readPlain false indent fuel before crossed (p.cursor text) =
      ⟨before ++ s, after, crossedAfter⟩ := by
  induction h generalizing p before crossed fuel with
  | @word w word =>
    obtain ⟨fuel, rfl⟩ := Nat.exists_eq_add_of_lt hf
    rw [← List.append_nil w, plainPieces_word word.solid] at within stop hg
    rw [readPlain_word word within stop before crossed hg, if_pos ends]
  | @gap w s n word hn rest ih =>
    obtain ⟨fuel, rfl⟩ := Nat.exists_eq_add_of_lt hf
    rw [plainPieces_word word.solid, pieces_spaces hn rest.head?_ne_space,
      List.foldl_cons] at within stop hg
    have inner := within.of_onward (Pen.onward_plainPieces _ _)
    obtain ⟨c, -, next, -, hash⟩ := rest.next? within
    obtain ⟨stopped, ⟨crossed', hgap⟩, far⟩ :=
      plainGap_pieces hn pos narrow inner (rest.rests within)
    have wide : (p.write w).column = p.column + w.length := rfl
    have filled := List.length_pos_iff.mpr word.pos
    have longer : p.reversed.length <
        (writePlainPiece column mayFold (p.write w) (.spaces n)).reversed.length := by
      refine Nat.lt_of_lt_of_le ?_ (Pen.onward_writePlainPiece (p.write w) (.spaces n)).length_le
      simp only [Pen.write, List.length_append, List.length_reverse]
      omega
    rw [readPlain_word word (inner.of_onward (Pen.onward_writePlainPiece _ _)) stopped before crossed
      hgap, if_neg]
    · have shorter := Pen.length_rest_lt inner longer
      have more := ih within (by omega) stop hg (Nat.lt_of_lt_of_le shorter (Nat.le_add_right _ fuel))
        (List.replicate n ' ') crossed'
      rw [Option.getD_some, more]
      simp only [List.append_assoc]
    · rw [not_or, not_or, next]
      refine ⟨?_, by simpa using hash, ?_⟩
      · simpa using Nat.pos_iff_ne_zero.mp hn
      · show ¬ ((writePlainPiece column mayFold (p.write w) (.spaces n)).column : Int) < indent
        omega

end Reading

end Neogrammar.Yaml
