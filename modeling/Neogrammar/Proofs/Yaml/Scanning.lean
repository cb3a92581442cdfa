import Neogrammar.Proofs.Outcome
import Neogrammar.Proofs.Yaml.Place
import Neogrammar.Yaml.Token

/-!
# Scanning from token to token

Between two tokens a scanner goes over spaces and new lines, forgets keys of earlier lines and
closes the block collections that end there. A run goes from one token to another; what a run that
reaches the end has queued is what the text is cut into.
-/
namespace Neogrammar.Yaml

/-- A token, or the end of the text, is what comes next. -/
def Cursor.Starts (c : Cursor) : Prop :=
  ∀ ch ∈ c.next?, ch ≠ ' ' ∧ isBreak ch = false ∧ ch ≠ '#'

theorem Cursor.Starts.rests {c : Cursor} (h : c.Starts) : c.Rests :=
  fun ch hc => ⟨(h ch hc).1, (h ch hc).2.1⟩

theorem Cursor.Starts.skipComment {c : Cursor} (h : c.Starts) : c.skipComment = c := by
  rw [Cursor.skipComment, if_neg]
  intro hash
  exact (h '#' (by simpa using hash)).2.2 rfl

namespace Scanner

variable {s t u v : Scanner}

/-! ## Runs -/

/-- Go from the end of a token to the start of the next one. -/
def reach (s : Scanner) : Except Fault Scanner := s.dropStale >>= settle

/-- One scanner comes from another one, which is at the start of a token, by taking tokens. -/
inductive Runs : Scanner → Scanner → Prop
  | refl (s : Scanner) : Runs s s
  | step {s t u v : Scanner} (take : s.takeNext = .ok t) (going : t.done = false)
      (reach : t.reach = .ok u) (shorter : u.cursor.rest.length < s.cursor.rest.length)
      (rest : Runs u v) : Runs s v

theorem Runs.trans (h : s.Runs t) (h' : t.Runs u) : s.Runs u := by
  induction h with
  | refl => exact h'
  | step take going reach shorter _ ih => exact .step take going reach shorter (ih h')

/-- One scanner comes from another one, which is at the end of a token. -/
def Leads (s t : Scanner) : Prop :=
  s.done = false ∧ ∃ u, s.reach = .ok u ∧ u.cursor.rest.length ≤ s.cursor.rest.length ∧ u.Runs t

theorem Leads.after (h : t.Leads u) (take : s.takeNext = .ok t)
    (shorter : t.cursor.rest.length < s.cursor.rest.length) : s.Runs u := by
  obtain ⟨going, r, reach, le, runs⟩ := h
  exact .step take going reach (Nat.lt_of_le_of_lt le shorter) runs

theorem tokens_of_reach {fuel certain : Nat} (going : s.done = false) (reach : s.reach = .ok t)
    (take : t.takeNext = .ok u) :
    s.tokens (fuel + 1) certain = u.tokens fuel (s.dropStale.toOption.getD s).certain := by
  obtain ⟨s', hs, ht⟩ := bind_eq_ok_iff.mp reach
  rw [tokens, going, hs]
  simp only [Bool.false_eq_true, if_false, ht, ok_bind, take]
  rfl

/-- The tokens of a run to the end. -/
theorem tokens_of_runs (h : t.Runs u) (hu : u.takeNext = .ok v) (done : v.done = true)
    (going : s.done = false) (reach : s.reach = .ok t) {fuel : Nat}
    (hf : t.cursor.rest.length + 1 < fuel) (certain : Nat) :
    s.tokens fuel certain = ⟨v.queue, none⟩ := by
  induction h generalizing s fuel certain with
  | refl t =>
    obtain ⟨n, rfl⟩ : ∃ n, fuel = n + 2 := ⟨fuel - 2, by omega⟩
    rw [tokens_of_reach going reach hu, tokens, if_pos done]
  | step take going' reach' shorter _ ih =>
    cases fuel with
    | zero => exact absurd hf (Nat.not_lt_zero _)
    | succ fuel =>
      rw [tokens_of_reach going reach take]
      exact ih hu going' reach' (by omega) _

/-! ## Indentation -/

theorem unwind_of_le {column : Int} (h : s.indent ≤ column) : s.unwind column = s := by
  unfold unwind
  split
  · rfl
  · cases s.outerIndents with
    | nil => rfl
    | cons outer rest => rw [unwind.close, if_neg (Int.not_lt.mpr h)]

theorem unwind_of_inFlow {column : Int} (h : s.inFlow = true) : s.unwind column = s := by
  rw [unwind, if_pos h]

/-- The block collection that is closed first. -/
def closeBlock (s : Scanner) : Scanner :=
  { s.push .blockEnd with indent := s.outerIndents.headD s.indent
                          outerIndents := s.outerIndents.tail }

theorem unwind_closeBlock {column : Int} (flow : s.inFlow = false) (h : column < s.indent)
    (outer : s.outerIndents ≠ []) : s.unwind column = s.closeBlock.unwind column := by
  obtain ⟨o, rest, ho⟩ := List.exists_cons_of_ne_nil outer
  have flow' : s.closeBlock.inFlow = false := flow
  rw [unwind, unwind, if_neg (by simp [flow]), if_neg (by simp [flow'])]
  simp only [closeBlock, ho, List.headD_cons, List.tail_cons]
  rw [unwind.close, if_pos h]

/-! ## To the next token -/

variable {text : List Char} {p : Pen} {fuel n : Nat}

theorem skip_spaces (within : (p.write (List.replicate n ' ')).Within text)
    (h : ((p.write (List.replicate n ' ')).cursor text).Rests) :
    (p.cursor text).skip isSpace = (p.write (List.replicate n ' ')).cursor text := by
  have each : ∀ c ∈ List.replicate n ' ', isSpace c = true := fun c hc => by
    rw [List.eq_of_mem_replicate hc]
    rfl
  rw [Cursor.skip, Pen.span_write within (Pen.flat_spaces n) each h.not_space]

theorem skipToToken_spaces (hs : s.cursor = p.cursor text)
    (within : (p.write (List.replicate n ' ')).Within text)
    (h : ((p.write (List.replicate n ' ')).cursor text).Starts) :
    s.skipToToken (fuel + 1) =
      { s with cursor := (p.write (List.replicate n ' ')).cursor text } := by
  rw [skipToToken, hs, skip_spaces within h.rests, h.skipComment]
  simp only [h.rests.not_break]

theorem skipToToken_here (h : s.cursor.Starts) : s.skipToToken (fuel + 1) = s := by
  have skip : s.cursor.skip isSpace = s.cursor := by
    rw [Cursor.skip, Cursor.span_stop h.rests.not_space]
  rw [skipToToken, skip, h.skipComment]
  simp only [h.rests.not_break]

theorem skipToToken_line (hs : s.cursor = p.cursor text) (within : (p.lineAt n).Within text)
    (h : ((p.lineAt n).cursor text).Starts) (flow : s.inFlow = false) :
    s.skipToToken (fuel + 2) =
      { s with cursor := (p.lineAt n).cursor text, mayStartKey := true } := by
  have line : (p.breakLine '\n').Within text := within.before_write
  have next := Pen.next?_breakLine line
  have stop : ∀ ch ∈ (p.cursor text).next?, isSpace ch = false := by
    rw [next]
    rintro ch ⟨⟩
    rfl
  have skip : (p.cursor text).skip isSpace = p.cursor text := by
    rw [Cursor.skip, Cursor.span_stop stop]
  have comment : (p.cursor text).skipComment = p.cursor text := by
    rw [Cursor.skipComment, next]
    rfl
  rw [skipToToken, hs, skip, comment]
  simp only [Pen.takeBreak?_breakLine line (.inl rfl), flow, Bool.not_false, Bool.or_true]
  exact skipToToken_spaces rfl within h

/-! ## Keys that are given up -/

/-- Possible keys that need not be keys, of this line or an earlier one. -/
def Optional (s : Scanner) : Prop := ∀ k ∈ s.keys, k.required = false ∧ k.line ≤ s.cursor.line

theorem dropStale_optional (h : ∀ k ∈ s.keys, k.required = false) :
    s.dropStale = .ok { s with keys := s.keys.filter fun k => !s.isStale k } := by
  rw [dropStale, if_neg]
  rw [List.any_eq_true]
  rintro ⟨k, hk, bad⟩
  simp [h k hk] at bad

theorem dropStale_fresh (h : ∀ k ∈ s.keys, s.isStale k = false) : s.dropStale = .ok s := by
  have all : s.keys.filter (fun k => !s.isStale k) = s.keys :=
    List.filter_eq_self.mpr fun k hk => by rw [h k hk]; rfl
  rw [dropStale, if_neg, all]
  rw [List.any_eq_true]
  rintro ⟨k, hk, bad⟩
  simp [h k hk] at bad

theorem isStale_of_line {k : PossibleKey} (h : k.line ≠ s.cursor.line) : s.isStale k = true := by
  simp [isStale, h]

/-- Keys of earlier lines are forgotten. -/
theorem dropStale_behind (h : ∀ k ∈ s.keys, k.required = false ∧ k.line < s.cursor.line) :
    s.dropStale = .ok { s with keys := [] } := by
  have none : s.keys.filter (fun k => !s.isStale k) = [] :=
    List.filter_eq_nil_iff.mpr fun k hk => by
      rw [isStale_of_line (Nat.ne_of_lt (h k hk).2)]
      exact Bool.false_ne_true
  rw [dropStale_optional fun k hk => (h k hk).1, none]

/-- The scanner at a place without possible keys. -/
def atPlace (s : Scanner) (c : Cursor) : Scanner := { s with cursor := c, keys := [] }

/-- The scanner at a place of a new line. -/
def onLine (s : Scanner) (c : Cursor) : Scanner :=
  { s with cursor := c, mayStartKey := true, keys := [] }

/-- The next token is on a new line. -/
theorem reach_line (hs : s.cursor = p.cursor text) (within : (p.lineAt n).Within text)
    (h : ((p.lineAt n).cursor text).Starts) (flow : s.inFlow = false) (keys : s.Optional) :
    s.reach = .ok ((s.onLine ((p.lineAt n).cursor text)).unwind n) := by
  have line : s.cursor.line < ((p.lineAt n).cursor text).line := hs ▸ Pen.line_lineAt p n
  obtain ⟨m, hm⟩ : ∃ m, s.cursor.rest.length = m + 1 := by
    rw [hs, Pen.rest_breakLine within.before_write]
    exact ⟨_, rfl⟩
  let kept : Scanner := { s with keys := s.keys.filter fun k => !s.isStale k }
  have skip : kept.skipToToken (m + 2) =
      { kept with cursor := (p.lineAt n).cursor text, mayStartKey := true } :=
    skipToToken_line hs within h flow
  have forget : Scanner.dropStale { kept with cursor := (p.lineAt n).cursor text, mayStartKey := true } =
      .ok (s.onLine ((p.lineAt n).cursor text)) := by
    refine dropStale_behind fun k hk => ?_
    obtain ⟨required, le⟩ := keys k (List.mem_filter.mp hk).1
    exact ⟨required, Nat.lt_of_le_of_lt le line⟩
  rw [reach, dropStale_optional fun k hk => (keys k hk).1, ok_bind, settle]
  simp only [hm]
  rw [skip, forget, ok_bind]
  have place : (s.onLine ((p.lineAt n).cursor text)).cursor.column = n :=
    Pen.column_lineAt p n
  rw [place]
  rfl

/-- The next token was reached with the one before it, on a new line. -/
theorem reach_crossed (h : s.cursor.Starts)
    (keys : ∀ k ∈ s.keys, k.required = false ∧ k.line < s.cursor.line) :
    s.reach = .ok ((s.atPlace s.cursor).unwind s.cursor.column) := by
  have none : (s.atPlace s.cursor).dropStale = .ok (s.atPlace s.cursor) :=
    dropStale_fresh (by simp [atPlace])
  have here := @skipToToken_here (s.atPlace s.cursor) s.cursor.rest.length h
  rw [reach, dropStale_behind keys, ok_bind]
  show settle (s.atPlace s.cursor) = _
  rw [settle]
  show ((s.atPlace s.cursor).skipToToken (s.cursor.rest.length + 1)).dropStale >>= _ = _
  rw [here, none]
  rfl

/-- The next token follows at once, and keys stay possible. -/
theorem reach_here (h : s.cursor.Starts) (keys : ∀ k ∈ s.keys, s.isStale k = false) :
    s.reach = .ok (s.unwind s.cursor.column) := by
  rw [reach, dropStale_fresh keys, ok_bind, settle, skipToToken_here h, dropStale_fresh keys]
  rfl

/-- The next token comes after spaces. -/
theorem reach_spaces (hs : s.cursor = p.cursor text)
    (within : (p.write (List.replicate n ' ')).Within text)
    (h : ((p.write (List.replicate n ' ')).cursor text).Starts) (keys : s.keys = []) :
    s.reach = .ok ((s.atPlace ((p.write (List.replicate n ' ')).cursor text)).unwind
      (p.column + n : Nat)) := by
  have column : ((p.write (List.replicate n ' ')).cursor text).column = p.column + n := by
    simp [Pen.cursor, Pen.write]
  have place (c : Cursor) : s.atPlace c = { s with cursor := c } := by rw [atPlace, ← keys]
  have none (c : Cursor) : (s.atPlace c).dropStale = .ok (s.atPlace c) :=
    dropStale_fresh (by simp [atPlace])
  rw [reach, dropStale_fresh (by simp [keys]), ok_bind, settle, skipToToken_spaces hs within h,
    ← place, none]
  simp only [ok_bind, ← column]
  rfl

end Scanner
end Neogrammar.Yaml
