import Mathlib.Tactic.SplitIfs
import Neogrammar.Yaml.Write

/-!
# Pieces of texts

A text is written piece by piece. Runs of spaces and runs of breaks are pieces of their own, and
between them it makes no difference how the characters are parted.
-/
namespace Neogrammar.Yaml

/-- How a text falls into runs of spaces, runs of breaks and single other characters. -/
inductive Cut : List Char → Prop
  | nil : Cut []
  | char {c : Char} {s : List Char} (space : c ≠ ' ') (lineEnd : isLineEnd c = false)
      (rest : Cut s) : Cut (c :: s)
  | spaces {n : Nat} {s : List Char} (pos : 0 < n) (apart : s.head? ≠ some ' ') (rest : Cut s) :
      Cut (List.replicate n ' ' ++ s)
  | breaks {bs s : List Char} (pos : bs ≠ []) (each : ∀ c ∈ bs, isLineEnd c = true)
      (apart : ∀ c ∈ s.head?, isLineEnd c = false) (rest : Cut s) : Cut (bs ++ s)

theorem Cut.cons_space {s : List Char} (h : Cut s) : Cut (' ' :: s) := by
  have fresh (apart : s.head? ≠ some ' ') : Cut (' ' :: s) := .spaces Nat.one_pos apart h
  cases h with
  | nil => exact fresh (by simp)
  | char space => exact fresh (by simpa using space)
  | @spaces n s pos apart rest => exact .spaces (Nat.succ_pos n) apart rest
  | @breaks bs s pos each apart rest =>
    obtain ⟨b, bs, rfl⟩ := List.exists_cons_of_ne_nil pos
    refine fresh fun hb => ?_
    have := each b List.mem_cons_self
    rw [List.cons_append, List.head?_cons, Option.some.injEq] at hb
    rw [hb] at this
    exact absurd this (by decide)

theorem Cut.cons_break {c : Char} {s : List Char} (hc : isLineEnd c = true) (h : Cut s) :
    Cut (c :: s) := by
  have fresh (apart : ∀ d ∈ s.head?, isLineEnd d = false) : Cut (c :: s) :=
    @Cut.breaks [c] s (List.cons_ne_nil c []) (by simpa using hc) apart h
  cases h with
  | nil => exact fresh (by simp)
  | char space lineEnd => exact fresh (by simpa using lineEnd)
  | @spaces n s pos apart rest =>
    obtain ⟨n, rfl⟩ := Nat.exists_eq_add_of_lt pos
    exact fresh (by simp [List.replicate_succ, isLineEnd])
  | @breaks bs s pos each apart rest =>
    exact @Cut.breaks (c :: bs) s (List.cons_ne_nil c bs)
      (List.forall_mem_cons.mpr ⟨hc, each⟩) apart rest

/-- Every text falls into pieces. -/
theorem cut (s : List Char) : Cut s := by
  induction s with
  | nil => exact .nil
  | cons c s ih =>
    by_cases space : c = ' '
    · exact space ▸ ih.cons_space
    · cases hc : isLineEnd c with
      | true => exact ih.cons_break hc
      | false => exact .char space hc ih

/-! ## The first piece -/

theorem pieces_cons (c : Char) (s : List Char) : pieces (c :: s) = addPiece c (pieces s) := rfl

theorem addPiece_space (ps : List Piece) (h : ∀ n rest, ps ≠ .spaces n :: rest) :
    addPiece ' ' ps = .spaces 1 :: ps := by
  cases ps with
  | nil => rfl
  | cons piece rest =>
    cases piece with
    | spaces n => exact absurd rfl (h n rest)
    | breaks s | quote | word s => rfl

theorem addPiece_break {c : Char} (hc : isLineEnd c = true) (ps : List Piece)
    (h : ∀ s rest, ps ≠ .breaks s :: rest) : addPiece c ps = .breaks [c] :: ps := by
  have space : c ≠ ' ' := by
    rintro rfl
    exact absurd hc (by decide)
  cases ps with
  | nil => simp [addPiece, addPiece.addFresh, space, hc]
  | cons piece rest =>
    cases piece with
    | breaks s => exact absurd rfl (h s rest)
    | spaces s | quote | word s => simp [addPiece, addPiece.addFresh, space, hc]

theorem head_of_spaces {s : List Char} {n : Nat} {rest : List Piece}
    (h : pieces s = .spaces n :: rest) : s.head? = some ' ' := by
  cases s with
  | nil => exact absurd h.symm (List.cons_ne_nil _ _)
  | cons c s =>
    rw [pieces_cons] at h
    unfold addPiece addPiece.addFresh at h
    split at h <;> split_ifs at h <;> simp_all

theorem head_of_breaks {s b : List Char} {rest : List Piece}
    (h : pieces s = .breaks b :: rest) : ∃ c ∈ s.head?, isLineEnd c = true := by
  cases s with
  | nil => exact absurd h.symm (List.cons_ne_nil _ _)
  | cons c s =>
    refine ⟨c, rfl, ?_⟩
    rw [pieces_cons] at h
    unfold addPiece addPiece.addFresh at h
    split at h <;> split_ifs at h <;> simp_all

theorem pieces_spaces {n : Nat} {s : List Char} (pos : 0 < n) (apart : s.head? ≠ some ' ') :
    pieces (List.replicate n ' ' ++ s) = .spaces n :: pieces s := by
  induction n with
  | zero => exact absurd pos (Nat.lt_irrefl 0)
  | succ n ih =>
    rw [List.replicate_succ, List.cons_append, pieces_cons]
    cases n with
    | zero => exact addPiece_space (pieces s) fun m rest h => apart (head_of_spaces h)
    | succ n =>
      rw [ih (Nat.succ_pos n)]
      rfl

theorem pieces_breaks {bs s : List Char} (pos : bs ≠ []) (each : ∀ c ∈ bs, isLineEnd c = true)
    (apart : ∀ c ∈ s.head?, isLineEnd c = false) :
    pieces (bs ++ s) = .breaks bs :: pieces s := by
  induction bs with
  | nil => exact absurd rfl pos
  | cons b bs ih =>
    obtain ⟨hb, hbs⟩ := List.forall_mem_cons.mp each
    rw [List.cons_append, pieces_cons]
    cases bs with
    | nil =>
      refine addPiece_break hb (pieces s) fun t rest h => ?_
      obtain ⟨c, hc, lineEnd⟩ := head_of_breaks h
      exact absurd lineEnd (by simp [apart c hc])
    | cons d bs =>
      rw [ih (List.cons_ne_nil d bs) hbs]
      simp [addPiece, hb]

/-- Any other character starts a word or a quote, or is added to a word. -/
theorem addPiece_char {c : Char} (space : c ≠ ' ') (lineEnd : isLineEnd c = false)
    (ps : List Piece) :
    addPiece c ps = (if c = '\'' then .quote else .word [c]) :: ps ∨
      c ≠ '\'' ∧ ∃ s rest, ps = .word s :: rest ∧ addPiece c ps = .word (c :: s) :: rest := by
  by_cases quote : c = '\''
  · subst quote
    left
    cases ps with
    | nil => rfl
    | cons piece rest => cases piece <;> rfl
  · cases ps with
    | nil => simp [addPiece, addPiece.addFresh, space, lineEnd, quote]
    | cons piece rest => cases piece <;> simp [addPiece, addPiece.addFresh, space, lineEnd, quote]

end Neogrammar.Yaml
