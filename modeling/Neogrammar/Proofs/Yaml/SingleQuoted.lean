import Neogrammar.Proofs.Yaml.Pieces
import Neogrammar.Proofs.Yaml.Quoted

/-!
# Texts in single quotes

A text in single quotes is read back, unless it holds a break that is read as a line feed or a break
next to a space. A single quote is written twice, and so is the line feed that begins a run of
breaks.
-/
namespace Neogrammar.Yaml

variable {text : List Char} {column : Nat} {mayFold first : Bool} {p : Pen}

/-! ## Neighbours -/

theorem hasPair_append {f g : Char → Bool} {s t : List Char} (h : hasPair f g (s ++ t) = false) :
    hasPair f g t = false ∧
      ∀ a ∈ s.getLast?, ∀ b ∈ t.head?, (f a && g b) = false := by
  induction s with
  | nil => exact ⟨h, by simp⟩
  | cons a s ih =>
    cases s with
    | nil =>
      cases t with
      | nil => exact ⟨rfl, by simp⟩
      | cons b t =>
        rw [List.singleton_append, hasPair, Bool.or_eq_false_iff] at h
        exact ⟨h.2, by simpa using h.1⟩
    | cons c s =>
      rw [List.cons_append, List.cons_append, hasPair, Bool.or_eq_false_iff] at h
      simpa [List.getLast?_cons_cons] using ih h.2

/-! ## Writing -/

namespace Pen

theorem onward_singlePieces (p : Pen) (first : Bool) (ps : List Piece) :
    p.Onward (writeSinglePieces column mayFold first p ps) := by
  induction ps generalizing p first with
  | nil => exact .refl p
  | cons piece ps ih =>
    cases piece with
    | spaces n =>
      rw [writeSinglePieces]
      refine Onward.trans ?_ (ih _ false)
      split
      · exact onward_indentTo p column
      · exact onward_write p _
    | breaks s => exact (onward_writeBreaks p s).trans ((onward_indentTo _ column).trans (ih _ false))
    | quote => exact (onward_write p _).trans (ih _ false)
    | word s => exact (onward_write p s).trans (ih _ false)

end Pen

/-- How a character that is no blank and no break is written between single quotes. -/
def singleText (c : Char) : List Char := if c = '\'' then ['\'', '\''] else [c]

theorem singlePieces_char {c : Char} (space : c ≠ ' ') (lineEnd : isLineEnd c = false)
    (s : List Char) :
    writeSinglePieces column mayFold first p (pieces (c :: s)) =
      writeSinglePieces column mayFold false (p.write (singleText c)) (pieces s) := by
  rw [pieces_cons]
  rcases addPiece_char space lineEnd (pieces s) with h | ⟨quote, t, rest, before, after⟩
  · rw [h, singleText]
    split <;> rfl
  · rw [after, before, singleText, if_neg quote, writeSinglePieces, writeSinglePieces,
      Pen.write_cons]

/-- After a run of spaces or breaks a word or the closing quote follows. -/
theorem firm_single {s : List Char} (space : s.head? ≠ some ' ')
    (lineEnd : ∀ c ∈ s.head?, isLineEnd c = false) (special : ∀ c ∈ s, isSpecial c = false)
    (h : ((writeSinglePieces column mayFold first p (pieces s)).write ['\'']).Within text) :
    Firm (p.cursor text) := by
  cases s with
  | nil => exact ⟨'\'', Pen.next?_write h, rfl, rfl⟩
  | cons c s =>
    have hs : c ≠ ' ' := by simpa using space
    have hl : isLineEnd c = false := lineEnd c rfl
    rw [singlePieces_char hs hl] at h
    have within := h.of_onward ((Pen.onward_singlePieces _ _ _).trans (Pen.onward_write _ _))
    have solid := isSolid_of_not_isSpecial (special c List.mem_cons_self) hl hs
    simp only [isSolid, isFlat, Bool.and_eq_true, Bool.not_eq_true'] at solid
    unfold singleText at within
    split at within
    · exact ⟨'\'', Pen.next?_write within, rfl, rfl⟩
    · exact ⟨c, Pen.next?_write within, solid.1, solid.2.1⟩

/-- A run of spaces is read back, folded or not. -/
theorem Closes.after_spaces {n : Nat} (hn : 0 < n) (pos : 0 < column) (narrow : column ≤ lineWidth)
    {fold : Bool} (single : fold = true → n = 1 ∧ lineWidth < p.column) {q : Pen}
    (hq : q = if fold then p.indentTo column else p.write (List.replicate n ' '))
    (within : q.Within text) (firm : Firm (q.cursor text)) {s : List Char} {last : Cursor}
    (h : Closes false (q.cursor text) s last) :
    Closes false (p.cursor text) (List.replicate n ' ' ++ s) last := by
  cases fold with
  | false =>
    obtain rfl : q = p.write (List.replicate n ' ') := hq
    refine h.after_gap ?_ (.inl (show isBlank ' ' = true from rfl)) (quotedGap_spaces within firm)
      (Pen.length_rest_lt within (by simp [Pen.write]; omega))
    obtain ⟨n, rfl⟩ := Nat.exists_eq_succ_of_ne_zero (Nat.pos_iff_ne_zero.mp hn)
    exact Pen.next?_write (s := List.replicate n ' ') within
  | true =>
    obtain ⟨rfl, far⟩ := single rfl
    obtain rfl : q = p.lineAt column :=
      hq.trans (Pen.indentTo_break (.inr (Nat.lt_of_le_of_lt narrow far)))
    have keeps : ∀ c ∈ ['\n'], Pen.KeepsBreak c := by simp [Pen.KeepsBreak]
    exact h.after_gap (Pen.next?_breakLine within.before_write) (.inr rfl)
      (quotedGap_lines keeps pos within firm)
      (Pen.length_rest_lt within (by simp [Pen.lineAt, Pen.breakLine, Pen.write]; omega))

/-- The breaks that are written for a run of breaks. -/
def writtenBreaks (bs : List Char) : List Char := if bs.head? = some '\n' then '\n' :: bs else bs

theorem writeBreaks_eq (p : Pen) (bs : List Char) :
    writeBreaks p bs = (writtenBreaks bs).foldl Pen.breakLine p := by
  unfold writeBreaks writtenBreaks
  by_cases h : bs.head? = some '\n' <;> simp [h]

theorem foldBreaks_written {bs : List Char} (h : bs ≠ []) :
    ∃ b tail, writtenBreaks bs = b :: tail ∧ foldBreaks b tail = bs := by
  obtain ⟨b, tail, rfl⟩ := List.exists_cons_of_ne_nil h
  by_cases feed : b = '\n'
  · exact ⟨'\n', b :: tail, by simp [writtenBreaks, feed], by simp [foldBreaks]⟩
  · exact ⟨b, tail, by simp [writtenBreaks, feed], by simp [foldBreaks, feed]⟩

theorem keepsBreak_of_isLineEnd {c : Char} (h : isLineEnd c = true) (next : c ≠ '\x85') :
    Pen.KeepsBreak c := by
  simp only [isLineEnd, Bool.or_eq_true, beq_iff_eq] at h
  rcases h with ((h | h) | h) | h
  · exact .inl h
  · exact absurd h next
  · exact .inr (.inl h)
  · exact .inr (.inr h)

/-- A run of breaks is read back. -/
theorem Closes.after_breaks {bs : List Char} (hb : bs ≠ [])
    (each : ∀ c ∈ bs, isLineEnd c = true) (next : '\x85' ∉ bs) (pos : 0 < column)
    (within : ((writeBreaks p bs).indentTo column).Within text)
    (firm : Firm (((writeBreaks p bs).indentTo column).cursor text)) {s : List Char} {last : Cursor}
    (h : Closes false (((writeBreaks p bs).indentTo column).cursor text) s last) :
    Closes false (p.cursor text) (bs ++ s) last := by
  obtain ⟨b, tail, written, folded⟩ := foldBreaks_written hb
  have keeps : ∀ c ∈ b :: tail, Pen.KeepsBreak c := by
    intro c hc
    rw [← written] at hc
    have : c ∈ bs ∨ c = '\n' := by
      unfold writtenBreaks at hc
      split at hc
      · exact (List.mem_cons.mp hc).symm
      · exact .inl hc
    rcases this with hc | rfl
    · exact keepsBreak_of_isLineEnd (each c hc) fun hx => next (hx ▸ hc)
    · exact .inl rfl
  rw [writeBreaks_eq, written, Pen.indentTo_lines p (List.cons_ne_nil b tail)] at within firm h
  have line : (p.breakLine b).Within text :=
    within.of_onward ((Pen.onward_breakLines _ tail).trans (Pen.onward_write _ _))
  rw [← folded]
  refine h.after_gap (Pen.next?_breakLine line) (.inr ?_) (quotedGap_lines keeps pos within firm)
    (Pen.length_rest_lt within ?_)
  · rcases keeps b List.mem_cons_self with rfl | rfl | rfl <;> rfl
  · simp only [Pen.write, List.length_append, Pen.length_breakLines, List.length_cons]
    omega

theorem readsWord_single {c : Char} (space : c ≠ ' ') (lineEnd : isLineEnd c = false)
    (special : isSpecial c = false) (h : (p.write (singleText c)).Within text) {w : List Char}
    {after : Cursor} (hw : ReadsWord false ((p.write (singleText c)).cursor text) w after) :
    ReadsWord false (p.cursor text) (c :: w) after := by
  have solid := isSolid_of_not_isSpecial special lineEnd space
  have flat : ∀ d ∈ singleText c, isFlat d = true := by
    intro d hd
    unfold singleText at hd
    split at hd
    · rcases List.mem_cons.mp hd with rfl | hd
      · rfl
      · rw [List.mem_singleton.mp hd]
        rfl
    · rw [List.mem_singleton.mp hd]
      exact (Bool.and_eq_true_iff.mp solid).2
  have goes := Pen.goes_write h flat
  by_cases quote : c = '\''
  · subst quote
    exact readsWord_doubled goes hw
  · rw [singleText, if_neg quote] at goes hw
    by_cases sign : c = '"' ∨ c = '\\'
    · exact readsWord_sign sign goes hw
    · refine readsWord_char goes ?_ hw
      simp only [isSolid, isFlat, Bool.and_eq_true, Bool.not_eq_true'] at solid
      simp [isQuotedStop, quote, not_or.mp sign, solid]

/-- What is written between single quotes is read back. -/
theorem closes_single {s : List Char} (cut : Cut s) (pos : 0 < column) (narrow : column ≤ lineWidth)
    (special : ∀ c ∈ s, isSpecial c = false) (next : '\x85' ∉ s)
    (after : hasPair isLineEnd isSpace s = false) (before : hasPair isSpace isLineEnd s = false)
    (h : ((writeSinglePieces column mayFold first p (pieces s)).write ['\'']).Within text)
    (ends : (((writeSinglePieces column mayFold first p (pieces s)).write ['\'']).cursor
      text).next? ≠ some '\'') :
    Closes false (p.cursor text) s
      (((writeSinglePieces column mayFold first p (pieces s)).write ['\'']).cursor text) := by
  induction cut generalizing p first with
  | nil =>
    change (p.write ['\'']).Within text at h
    change ((p.write ['\'']).cursor text).next? ≠ some '\'' at ends
    change Closes false (p.cursor text) [] ((p.write ['\'']).cursor text)
    have quote : (p.cursor text).next? = some '\'' := Pen.next?_write h
    have close : Closes false (p.cursor text) [] (p.cursor text).step :=
      .close (readsWord_nil quote rfl (by decide) (fun _ => ⟨rfl, Pen.at?_write h ▸ ends⟩)
        (by decide)) quote
    rwa [Pen.step_write h rfl] at close
  | @char c s space lineEnd rest ih =>
    obtain ⟨hc, hs⟩ := List.forall_mem_cons.mp special
    rw [singlePieces_char space lineEnd] at h ends ⊢
    have within := h.of_onward ((Pen.onward_singlePieces _ _ _).trans (Pen.onward_write _ _))
    have more := ih hs (fun hx => next (List.mem_cons_of_mem c hx)) (hasPair_append (s := [c]) after).1
      (hasPair_append (s := [c]) before).1 h ends
    exact more.prepend (x := [c]) (fun w after => readsWord_single space lineEnd hc within)
      (Pen.length_rest_onward (Pen.onward_write _ _))
  | @spaces n s hn apart rest ih =>
    have hs : ∀ c ∈ s, isSpecial c = false := fun c hc => special c (List.mem_append_right _ hc)
    have lineEnd : ∀ c ∈ s.head?, isLineEnd c = false := by
      intro c hc
      have last : (List.replicate n ' ').getLast? = some ' ' := by
        simp [List.getLast?_replicate, Nat.pos_iff_ne_zero.mp hn]
      simpa [isSpace] using (hasPair_append before).2 ' ' last c hc
    rw [pieces_spaces hn apart, writeSinglePieces] at h ends ⊢
    generalize hq : (if n == 1 && lineWidth < p.column && mayFold && !first && !(pieces s).isEmpty
      then p.indentTo column else p.write (List.replicate n ' ')) = q at h ends ⊢
    have firm := firm_single apart lineEnd hs h
    have within := h.of_onward ((Pen.onward_singlePieces _ _ _).trans (Pen.onward_write _ _))
    have more := ih hs (fun hx => next (List.mem_append_right _ hx)) (hasPair_append after).1
      (hasPair_append before).1 h ends
    exact more.after_spaces hn pos narrow (fun fold => by simp at fold; exact fold.1.1.1) hq.symm
      within firm
  | @breaks bs s hb each apart rest ih =>
    have hs : ∀ c ∈ s, isSpecial c = false := fun c hc => special c (List.mem_append_right _ hc)
    have space : s.head? ≠ some ' ' := by
      intro hc
      have pair := (hasPair_append after).2 (bs.getLast hb) (List.getLast?_eq_some_getLast hb) ' ' hc
      simp [isSpace, each _ (List.getLast_mem hb)] at pair
    rw [pieces_breaks hb each apart, writeSinglePieces] at h ends ⊢
    have firm := firm_single space apart hs h
    have within := h.of_onward ((Pen.onward_singlePieces _ _ _).trans (Pen.onward_write _ _))
    have more := ih hs (fun hx => next (List.mem_append_right _ hx)) (hasPair_append after).1
      (hasPair_append before).1 h ends
    exact more.after_breaks hb each (fun hx => next (List.mem_append_left _ hx)) pos within firm

end Neogrammar.Yaml
