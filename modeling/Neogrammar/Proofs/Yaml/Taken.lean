import Neogrammar.Proofs.Yaml.Progress
import Neogrammar.Yaml.Token

/-!
# Every text is cut to its end

A scanner takes at least one character with every token, so it comes to the end of its text or to a
fault, and the fault is that of bad notation or of a number in it that is too large.
-/
namespace Neogrammar.Yaml

open Cursor

/-- Tokens that no fault ends close with the end of the text. -/
def Tokens.Closed (t : Tokens) : Prop :=
  t.fault = none → t.tokens.getLast?.map Token.kind = some .streamEnd

namespace Scanner

variable {s t : Scanner} {text : List Char} {x : Except Fault Scanner}

/-! ## What stays at its place -/

/-- Two scanners at the same place. -/
structure Keeps (s t : Scanner) : Prop where
  cursor : t.cursor = s.cursor
  done : t.done = s.done
  level : t.level = s.level

theorem Keeps.refl (s : Scanner) : s.Keeps s := ⟨rfl, rfl, rfl⟩

theorem Keeps.trans {u : Scanner} (h : s.Keeps t) (h' : t.Keeps u) : s.Keeps u :=
  ⟨h'.cursor.trans h.cursor, h'.done.trans h.done, h'.level.trans h.level⟩

theorem meets_dropStale (s : Scanner) : Meets s.Keeps (Spoiled text) s.dropStale := by
  unfold dropStale
  split_ifs
  · exact Spoiled.malformed _
  · exact ⟨rfl, rfl, rfl⟩

theorem meets_dropKey (s : Scanner) : Meets s.Keeps (Spoiled text) s.dropKey := by
  unfold dropKey
  split_ifs
  · exact Spoiled.malformed _
  · exact ⟨rfl, rfl, rfl⟩

theorem meets_saveKey (s : Scanner) : Meets s.Keeps (Spoiled text) s.saveKey := by
  unfold saveKey
  split_ifs
  · exact s.meets_dropKey.bind fun t h => ⟨h.cursor, h.done, h.level⟩
  · exact .refl s

theorem keeps_close (s : Scanner) (column : Int) (indents : List Int) :
    s.Keeps (unwind.close column indents s) := by
  induction indents generalizing s with
  | nil => exact .refl s
  | cons outer rest ih =>
    unfold unwind.close
    split_ifs
    · have closed : s.Keeps { s.push .blockEnd with indent := outer, outerIndents := rest } :=
        ⟨rfl, rfl, rfl⟩
      exact closed.trans (ih _)
    · exact .refl s

theorem keeps_unwind (s : Scanner) (column : Int) : s.Keeps (s.unwind column) := by
  unfold unwind
  split_ifs
  · exact .refl s
  · exact s.keeps_close column _

theorem keeps_openBlock (s : Scanner) (kind : TokenKind) : s.Keeps (s.openBlock kind) := by
  unfold openBlock
  split_ifs
  · exact ⟨rfl, rfl, rfl⟩
  · exact .refl s

theorem keeps_confirmKey (s : Scanner) (k : PossibleKey) : s.Keeps (s.confirmKey k) := by
  unfold confirmKey
  dsimp only
  split_ifs <;> exact ⟨rfl, rfl, rfl⟩

/-! ## What takes a token -/

/-- A token with at least one character is taken, or the text is at fault. -/
abbrev Takes (s : Scanner) (x : Except Fault Scanner) : Prop :=
  Meets (fun t => t.done = s.done ∧ t.cursor.Within s.cursor.step.rest) (Spoiled s.cursor.rest) x

theorem Keeps.takes (h : s.Keeps t) (hx : t.Takes x) : s.Takes x := by
  rw [Takes, h.cursor, h.done] at hx
  exact hx

theorem Takes.after {f : Scanner → Except Fault Scanner}
    (hx : Meets s.Keeps (Spoiled s.cursor.rest) x) (hf : ∀ t, s.Keeps t → t.Takes (f t)) :
    s.Takes (x >>= f) := hx.bind fun t h => h.takes (hf t h)

/-- A reader of the text behind the first character. -/
theorem Takes.reading {α : Type} {y : Except Fault (α × Cursor)}
    {f : α × Cursor → Except Fault Scanner} (hy : Advances s.cursor.step.rest y)
    (hf : ∀ r, r.2.Within s.cursor.step.rest → s.Takes (f r)) : s.Takes (y >>= f) := by
  refine (hy.mono (fun _ at' => at') fun _ fault => fault.mono ?_).bind hf
  exact (s.cursor.within_self.step).isInfix

theorem within_take (s : Scanner) (kind : TokenKind) (n : Nat) :
    (s.take kind (n + 1)).cursor.Within s.cursor.step.rest :=
  (within_self s.cursor.step).advance n

theorem takes_marker (s : Scanner) (kind : TokenKind) : s.Takes (s.takeMarker kind) :=
  (s.keeps_unwind (-1)).takes <| .after (meets_dropKey _) fun t _ => ⟨rfl, t.within_take kind 2⟩

theorem takes_opening (s : Scanner) (kind : TokenKind) : s.Takes (s.takeOpening kind) :=
  .after (meets_saveKey _) fun t _ => ⟨rfl, t.within_take kind 0⟩

theorem takes_closing (s : Scanner) (kind : TokenKind) : s.Takes (s.takeClosing kind) :=
  .after (meets_dropKey _) fun t _ => ⟨rfl, t.within_take kind 0⟩

theorem takes_comma (s : Scanner) : s.Takes s.takeComma :=
  .after (meets_dropKey _) fun t _ => ⟨rfl, t.within_take .flowEntry 0⟩

theorem keeps_block (s : Scanner) (kind : TokenKind) :
    s.Keeps (if s.inFlow then s else s.openBlock kind) := by
  split_ifs
  · exact .refl s
  · exact s.keeps_openBlock kind

theorem takes_dash (s : Scanner) : s.Takes s.takeDash := by
  unfold takeDash
  split
  · exact Spoiled.malformed _
  · exact (s.keeps_block _).takes <|
      .after (meets_dropKey _) fun t _ => ⟨rfl, t.within_take .blockEntry 0⟩

theorem takes_question (s : Scanner) : s.Takes s.takeQuestion := by
  unfold takeQuestion
  split
  · exact Spoiled.malformed _
  · exact (s.keeps_block _).takes <|
      .after (meets_dropKey _) fun t _ => ⟨rfl, t.within_take .key 0⟩

theorem takes_colon (s : Scanner) : s.Takes s.takeColon := by
  unfold takeColon
  split
  · rename_i k _
    exact (s.keeps_confirmKey k).takes ⟨rfl, within_take _ _ 0⟩
  · split
    · exact Spoiled.malformed _
    · refine (s.keeps_block .blockMappingStart).takes ?_
      generalize (if s.inFlow then s else s.openBlock .blockMappingStart) = u
      exact (Keeps.mk rfl rfl rfl : u.Keeps { u with mayStartKey := !u.inFlow }).takes <|
        .after (meets_dropKey _) fun t _ => ⟨rfl, t.within_take .value 0⟩

/-! ## Names, addresses and directives -/

section Readers

variable {s : List Char} {c : Cursor}

theorem meets_readName (c : Cursor) :
    Meets (fun r => r.1 ++ r.2.rest = c.rest) (Spoiled s) (readName c) :=
  .ite (fun _ => Spoiled.malformed _) fun _ => span_rest isNamePart c

theorem advances_readEscapedBytes (h : c.Within s) (fuel : Nat) :
    Advances s (readEscapedBytes fuel c) := by
  induction fuel generalizing c with
  | zero => exact h
  | succ fuel ih =>
    unfold readEscapedBytes
    split
    · split
      · exact Spoiled.malformed _
      · exact (ih (h.advance 3)).bind fun _ after => after
    · exact h

theorem advances_readAddress (h : c.Within s) (fuel : Nat) : Advances s (readAddress fuel c) := by
  induction fuel generalizing c with
  | zero => exact h
  | succ fuel ih =>
    unfold readAddress
    dsimp only
    split
    · refine (advances_readEscapedBytes (h.span _) _).bind fun ⟨bytes, d⟩ after => ?_
      dsimp only
      split
      · exact Spoiled.malformed _
      · exact (ih after).bind fun _ after => after
    · exact h.span _

theorem advances_readAddressOf (h : c.Within s) : Advances s (readAddressOf c) := by
  refine (advances_readAddress h _).bind fun ⟨address, d⟩ after => ?_
  dsimp only
  split
  · exact Spoiled.malformed _
  · exact after

theorem advances_readHandle (c : Cursor) : Advances c.step.rest (readHandle c) := by
  have here := c.step.within_self
  unfold readHandle
  split
  · exact Spoiled.malformed _
  · split
    · exact here
    · dsimp only
      split
      · exact (here.span _).step
      · exact Spoiled.malformed _

theorem advances_readTag (c : Cursor) : Advances c.step.rest (readTag c) := by
  have here := c.step.within_self
  unfold readTag
  split
  · refine (advances_readAddressOf (here.advance 1)).bind fun ⟨suffix, d⟩ after => ?_
    dsimp only
    split
    · exact Within.step after
    · exact Spoiled.malformed _
  · split
    · exact here
    · dsimp only
      split
      · refine (advances_readHandle c).bind fun ⟨handle, d⟩ after => ?_
        exact (advances_readAddressOf after).bind fun _ after => after
      · exact (advances_readAddressOf here).bind fun _ after => after

theorem advances_readTagHandle (h : c.Within s) : Advances s (readTagHandle c) := by
  refine ((advances_readHandle _).of_suffix (h.skip isSpace).step).bind fun ⟨handle, d⟩ after => ?_
  dsimp only
  split
  · exact Spoiled.malformed _
  · refine (advances_readAddressOf (Within.skip after isSpace)).bind fun ⟨expansion, e⟩ last => ?_
    dsimp only
    split
    · exact last
    · exact Spoiled.malformed _

/-- A number of a version, some spaces or another number after the name of its directive. -/
theorem meets_readNatural {between text : List Char}
    (there : "%YAML".toList ++ between ++ c.rest <:+: text)
    (apart : ∀ ch ∈ between, ch = ' ' ∨ ch = '.' ∨ ch.isDigit) :
    Meets (fun r => ∃ digits : List Char, (∀ ch ∈ digits, ch.isDigit) ∧ c.rest = digits ++ r.2.rest)
      (Spoiled text) (readNatural c) := by
  have digits : ∀ ch ∈ (c.span Char.isDigit).1, ch.isDigit := fun _ hc =>
    List.mem_takeWhile_imp hc
  have rest := span_rest Char.isDigit c
  unfold readNatural
  dsimp only
  split_ifs with _ long
  · exact Spoiled.malformed _
  · refine .inr (.version (List.IsInfix.trans ?_ there) apart digits long)
    rw [← rest, ← List.append_assoc]
    exact (List.prefix_append _ _).isInfix
  · exact ⟨_, digits, rest.symm⟩

theorem meets_readVersion {text : List Char} (there : "%YAML".toList ++ c.rest <:+: text)
    (h : c.Within s) : Meets (fun r => r.2.Within s) (Spoiled text) (readVersion c) := by
  have rest := span_rest isSpace c
  have spaces : ∀ ch ∈ (c.span isSpace).1, ch = ' ' := fun _ hc => by
    simpa [isSpace] using List.mem_takeWhile_imp hc
  rw [← rest, ← List.append_assoc] at there
  refine (meets_readNatural there fun ch hc => .inl (spaces ch hc)).bind fun ⟨major, d⟩ after => ?_
  obtain ⟨digits, number, hd⟩ := after
  have hd : (c.span isSpace).2.rest = digits ++ d.rest := hd
  have atDigits : d.Within s := (List.suffix_append digits _).trans (hd ▸ h.skip isSpace)
  dsimp only
  split_ifs with point
  · exact Spoiled.malformed _
  have next : '.' :: d.step.rest = d.rest := cons_step_rest (by simpa using point)
  rw [hd, ← next] at there
  have there : "%YAML".toList ++ ((c.span isSpace).1 ++ digits ++ ['.']) ++ d.step.rest <:+: text := by
    simpa using there
  refine (meets_readNatural there fun ch hc => ?_).bind fun ⟨minor, e⟩ after => ?_
  · simp only [List.mem_append, List.mem_singleton] at hc
    rcases hc with (hc | hc) | hc
    · exact .inl (spaces ch hc)
    · exact .inr (.inr (number ch hc))
    · exact .inr (.inl hc)
  · obtain ⟨more, -, he⟩ := after
    dsimp only
    split_ifs
    · exact (List.suffix_append more _).trans (he ▸ atDigits.step)
    · exact Spoiled.malformed _

end Readers

theorem takes_anchor (s : Scanner) (kind : String → TokenKind) : s.Takes (s.takeAnchor kind) := by
  refine .after (meets_saveKey _) fun t _ => ?_
  refine (meets_readName t.cursor.step).bind fun ⟨name, c⟩ after => ?_
  exact .ite (fun _ => ⟨rfl, name, after⟩) fun _ => Spoiled.malformed _

theorem takes_tag (s : Scanner) : s.Takes s.takeTag := by
  refine .after (meets_saveKey _) fun t _ => ?_
  refine .reading (advances_readTag t.cursor) fun ⟨⟨handle, suffix⟩, c⟩ after => ?_
  dsimp only
  split_ifs
  · exact ⟨rfl, after⟩
  · exact Spoiled.malformed _

theorem takes_directive (sign : s.cursor.next? = some '%') : s.Takes s.takeDirective := by
  refine (s.keeps_unwind (-1)).takes <| .after (meets_dropKey _) fun t kept => ?_
  have sign : t.cursor.next? = some '%' := by rw [kept.cursor, (s.keeps_unwind _).cursor, sign]
  refine (meets_readName t.cursor.step).bind fun ⟨name, c⟩ after => ?_
  have named : name ++ c.rest = t.cursor.step.rest := after
  have there : c.Within t.cursor.step.rest := ⟨name, named⟩
  have spoiled {f : Fault} (h : Spoiled t.cursor.step.rest f) : Spoiled t.cursor.rest f :=
    h.mono t.cursor.within_self.step.isInfix
  refine .ite (fun _ => Spoiled.malformed _) fun _ => ?_
  have finish (kind : TokenKind) {d : Cursor} (h : d.Within t.cursor.step.rest) :
      t.Takes (d.finishLine >>= fun d =>
        pure { t.push kind with cursor := d, mayStartKey := false }) :=
    (h.finishLine.mono (fun _ after => after) fun _ => spoiled).bind fun _ after => ⟨rfl, after⟩
  refine .ite (fun version => ?_) fun _ => .ite (fun _ => ?_) fun _ => finish _ (there.skip _)
  · have whole : "%YAML".toList ++ c.rest = t.cursor.rest := by
      rw [← cons_step_rest sign, ← named, eq_of_beq version]
      rfl
    exact (meets_readVersion (whole ▸ List.infix_rfl) there).bind fun _ after => finish _ after
  · exact ((advances_readTagHandle there).mono (fun _ after => after) fun _ => spoiled).bind
      fun _ after => finish _ after

theorem plainLength_ne_zero {flow : Bool} {c : Char} {rest : List Char}
    (h : plainEnds flow c rest.head? = false) : plainLength flow (c :: rest) ≠ 0 := by
  rw [plainLength, h]
  exact Nat.succ_ne_zero _

/-- What starts a plain scalar does not end it. -/
theorem plainEnds_of_startsPlain {c : Char} {rest : List Char} (hr : s.cursor.rest = c :: rest)
    (starts : s.startsPlain c = true) : plainEnds s.inFlow c rest.head? = false := by
  have second : s.cursor.at? 1 = rest.head? := by
    rw [Cursor.at?, hr]
    cases rest <;> rfl
  rw [startsPlain, second, Bool.or_eq_true] at starts
  rcases starts with plain | sign
  · simp [isBlank, isBreak] at plain
    simp [plainEnds, isFlowSign, isBlank, isBreak, plain]
  · simp only [Bool.and_eq_true, Bool.not_eq_true', Bool.or_eq_true, beq_iff_eq] at sign
    obtain ⟨word, rfl | ⟨outside, rfl | rfl⟩⟩ := sign
    · simp [plainEnds, isFlowSign, isBlank, isBreak]
    · simp [plainEnds, isBlank, isBreak, outside]
    · simp [plainEnds, isBlank, isBreak, outside, word]

theorem takes_plain {c : Char} (next : s.cursor.next? = some c) (starts : s.startsPlain c = true) :
    s.Takes s.takePlain := by
  obtain ⟨rest, hr⟩ := List.head?_eq_some_iff.mp next
  have comment : c ≠ '#' := by
    rintro rfl
    simp [startsPlain, isBlank, isBreak] at starts
  refine .after (meets_saveKey _) fun t kept => ⟨rfl, ?_⟩
  have flow : t.inFlow = s.inFlow := by rw [inFlow, kept.level, inFlow]
  refine readPlain_strict ?_ ?_
  · rw [kept.cursor, next]
    simpa using comment
  · rw [kept.cursor, hr, flow]
    exact plainLength_ne_zero (plainEnds_of_startsPlain hr starts)

theorem takes_quoted (s : Scanner) (double : Bool) : s.Takes (s.takeQuoted double) := by
  refine .after (meets_saveKey _) fun t _ => ?_
  exact .reading (advances_readQuoted double t.cursor) fun _ after => ⟨rfl, after⟩

theorem takes_block (s : Scanner) (folded : Bool) : s.Takes (s.takeBlock folded) := by
  refine (Keeps.mk rfl rfl rfl : s.Keeps { s with mayStartKey := true }).takes <|
    .after (meets_dropKey _) fun t _ => ?_
  exact .reading (advances_readBlock folded t.indent t.cursor) fun _ after => ⟨rfl, after⟩

theorem takes_at {c : Char} (next : s.cursor.next? = some c) : s.Takes (s.takeAt c) := by
  unfold takeAt
  refine .ite (fun sign => takes_directive ?_) fun _ => ?_
  · rw [next]
    rw [Bool.and_eq_true, beq_iff_eq] at sign
    rw [sign.1]
  refine .ite (fun _ => takes_marker _ _) fun _ => .ite (fun _ => takes_marker _ _) fun _ => ?_
  refine .ite (fun _ => takes_opening _ _) fun _ => .ite (fun _ => takes_opening _ _) fun _ => ?_
  refine .ite (fun _ => takes_closing _ _) fun _ => .ite (fun _ => takes_closing _ _) fun _ => ?_
  refine .ite (fun _ => takes_comma _) fun _ => .ite (fun _ => takes_dash _) fun _ => ?_
  refine .ite (fun _ => takes_question _) fun _ => .ite (fun _ => takes_colon _) fun _ => ?_
  refine .ite (fun _ => takes_anchor _ _) fun _ => .ite (fun _ => takes_anchor _ _) fun _ => ?_
  refine .ite (fun _ => takes_tag _) fun _ => ?_
  refine .ite (fun _ => takes_block _ _) fun _ => .ite (fun _ => takes_block _ _) fun _ => ?_
  refine .ite (fun _ => takes_quoted _ _) fun _ => .ite (fun _ => takes_quoted _ _) fun _ => ?_
  exact .ite (fun starts => takes_plain next starts) fun _ => Spoiled.malformed _

/-! ## From token to token -/

theorem within_skipToToken (fuel : Nat) {c : List Char} (h : s.cursor.Within c) :
    (s.skipToToken fuel).cursor.Within c ∧ (s.skipToToken fuel).done = s.done := by
  induction fuel generalizing s with
  | zero => exact ⟨h, rfl⟩
  | succ fuel ih =>
    unfold skipToToken
    dsimp only
    have here := (h.skip isSpace).skipComment
    split
    · exact ⟨here, rfl⟩
    · rename_i hd
      exact ih (here.takeBreak? hd)

theorem meets_settle (s : Scanner) :
    Meets (fun t => t.cursor.Within s.cursor.rest ∧ t.done = s.done) (Spoiled text) s.settle := by
  obtain ⟨within, done⟩ := within_skipToToken (s.cursor.rest.length + 1) s.cursor.within_self
  refine (meets_dropStale _).bind fun t kept => ?_
  have closed := t.keeps_unwind t.cursor.column
  rw [← kept.cursor] at within
  rw [← kept.done] at done
  exact ⟨by rw [closed.cursor]; exact within, by rw [closed.done, done]⟩

/-- A scanner that comes from another one by a token: with fewer characters before it, or at the
end of the text. -/
structure Follows (s t : Scanner) : Prop where
  within : t.cursor.Within s.cursor.rest
  shorter : t.done = false → t.cursor.rest.length < s.cursor.rest.length
  ended : t.done = true → t.queue.getLast?.map Token.kind = some .streamEnd

theorem meets_takeNext (going : s.done = false) :
    Meets s.Follows (Spoiled s.cursor.rest) s.takeNext := by
  unfold takeNext
  split
  · refine (meets_dropKey _).bind fun t kept => ⟨?_, nofun, fun _ => by simp [push]⟩
    show t.cursor.Within s.cursor.rest
    rw [kept.cursor, (s.keeps_unwind _).cursor]
    exact s.cursor.within_self
  · rename_i c next
    refine (takes_at next).mono (fun t ⟨done, within⟩ => ⟨?_, fun _ => ?_, ?_⟩) fun _ fault => fault
    · exact within.trans s.cursor.within_self.step
    · rw [← cons_step_rest next]
      exact Nat.lt_succ_of_le within.length_le
    · rw [done, going]
      exact nofun

theorem meets_step (going : s.done = false) :
    Meets s.Follows (Spoiled s.cursor.rest) (s.settle >>= takeNext) := by
  refine s.meets_settle.bind fun t ⟨within, done⟩ => ?_
  have next := meets_takeNext (done.trans going)
  refine next.mono (fun u h => ⟨h.within.trans within, fun hu => ?_, h.ended⟩) fun _ fault => ?_
  · exact Nat.lt_of_lt_of_le (h.shorter hu) within.length_le
  · exact fault.mono within.isInfix

/-- With enough fuel a scanner comes to the end of its text or to a fault of it. -/
theorem closed_tokens {fuel certain : Nat} (within : s.cursor.rest <:+: text)
    (going : s.done = false → s.cursor.rest.length + 2 ≤ fuel)
    (ended : s.done = true → 0 < fuel ∧ s.queue.getLast?.map Token.kind = some .streamEnd) :
    (s.tokens fuel certain).Closed ∧ ∀ f ∈ (s.tokens fuel certain).fault, Spoiled text f := by
  -- every step leaves fewer characters, but for the last, which puts the end in the queue
  induction fuel generalizing s certain with
  | zero =>
    cases hd : s.done with
    | true => exact absurd (ended hd).1 (Nat.lt_irrefl 0)
    | false => exact absurd (going hd) (Nat.not_succ_le_zero _)
  | succ fuel ih =>
    unfold tokens
    split
    · rename_i hd
      exact ⟨fun _ => (ended hd).2, nofun⟩
    rename_i hd
    have hd : s.done = false := by simpa using hd
    have dropped : Meets s.Keeps (Spoiled text) s.dropStale := s.meets_dropStale
    split
    · rename_i f hf
      rw [hf] at dropped
      refine ⟨nofun, ?_⟩
      rintro _ ⟨⟩
      exact dropped
    · rename_i t ht
      have kept : s.Keeps t := dropped.of_eq_ok ht
      have step := meets_step (kept.done.trans hd)
      have there : t.cursor.rest <:+: text := kept.cursor ▸ within
      split
      · rename_i f hf
        rw [hf] at step
        refine ⟨nofun, ?_⟩
        rintro _ ⟨⟩
        exact Spoiled.mono step there
      · rename_i u hu
        have follows : t.Follows u := step.of_eq_ok hu
        have enough := going hd
        rw [← kept.cursor] at enough
        refine ih (follows.within.isInfix.trans there) (fun hu => ?_) fun hu => ⟨?_, follows.ended hu⟩
        · have := follows.shorter hu
          omega
        · omega

end Scanner

/-- The tokens of every text come to its end, or to bad notation, or to a number that is too
large. -/
theorem Tokens.closed_ofText (text : List Char) :
    (Tokens.ofText text).Closed ∧ ∀ f ∈ (Tokens.ofText text).fault, Spoiled text f := by
  have start : (Scanner.start text).cursor.Within text := List.suffix_refl text
  unfold Tokens.ofText
  dsimp only
  split
  · have within := start.step
    exact Scanner.closed_tokens within.isInfix (fun _ => Nat.add_le_add_right within.length_le 2) nofun
  · exact Scanner.closed_tokens start.isInfix (fun _ => Nat.le_refl _) nofun

end Neogrammar.Yaml
