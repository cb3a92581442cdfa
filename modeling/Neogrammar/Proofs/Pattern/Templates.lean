import Neogrammar.Pattern.Template
import Neogrammar.Proofs.Pattern.Faults

/-!
# Templates that are read

A template that is accepted refers only to groups of its pattern. One that is refused has a fault,
or stands for a group by a name that the pattern does not have.
-/
namespace Neogrammar.Pattern

open Reader

/-- A piece refers at most to one of the first groups. -/
def Piece.Within (groups : Nat) : Piece → Prop
  | .text _ => True
  | .group n => n ≤ groups

/-- All groups that a template refers to are among the first ones. -/
def Template.Within (t : Template) (groups : Nat) : Prop := ∀ piece ∈ t, piece.Within groups

/-- A text refers to a group by an identifier that names no group. -/
structure Misnamed (c : Compiled) (s : List Char) (name : String) : Prop where
  identifier : Text.isIdentifier name.toList = true
  unknown : c.names.lookup name = none
  stands : '\\' :: 'g' :: '<' :: name.toList ++ ['>'] <:+: s

/-- A refusal of a template: with a fault, or for a name. -/
def Amiss (c : Compiled) (s : List Char) (refusal : Refusal) : Prop :=
  refusal.IsFault ∨ ∃ name, refusal = .unknownGroup name ∧ Misnamed c s name

variable {c : Compiled} {r r₁ : Reader} {s t : List Char} {letter : Char} {piece : Piece}

section
variable {α : Type} {x : Except Refusal α}

theorem Faulty.amiss (h : Faulty x) : FailsOnly (Amiss c s) x := h.mono fun _ => .inl

theorem amiss_mono (h : FailsOnly (Amiss c s) x) (within : s <:+: t) : FailsOnly (Amiss c t) x :=
  h.mono fun _ amiss => amiss.imp_right fun ⟨name, eq, misnamed⟩ =>
    ⟨name, eq, { misnamed with stands := misnamed.stands.trans within }⟩

end

/-- A name is what stands before the terminator. -/
theorem Reader.rest_of_takeUntil {terminator : Char} {what : String} {fuel : Nat} {so : List Char}
    (whole : Whole r.rest) (h : takeUntil terminator what fuel so r = .ok (s, r₁)) :
    ∃ more, s = so ++ more ∧ r.rest = more ++ terminator :: r₁.rest := by
  induction fuel generalizing so r with
  | zero => cases h
  | succ fuel ih =>
    unfold takeUntil at h
    split at h
    · split at h <;> cases h
    · rename_i d next
      obtain ⟨r', advance, h⟩ := bind_eq_ok_iff.mp h
      obtain ⟨rest, whole'⟩ := rest_of_advance whole next advance
      split at h
      · rename_i last
        split at h
        · cases h
        · cases h
          exact ⟨[], by simp, by rw [rest, last]; rfl⟩
      · obtain ⟨more, rfl, rest'⟩ := ih whole' h
        exact ⟨d :: more, by simp, by rw [rest, rest']; rfl⟩
    · rename_i d next
      obtain ⟨r', advance, h⟩ := bind_eq_ok_iff.mp h
      obtain ⟨rest, whole'⟩ := rest_of_advance whole next advance
      obtain ⟨more, rfl, rest'⟩ := ih whole' h
      exact ⟨'\\' :: d :: more, by simp, by rw [rest, rest']; rfl⟩

theorem Reader.rest_of_name {terminator : Char} {what name : String} (whole : Whole r.rest)
    (h : r.name terminator what = .ok (name, r₁)) :
    r.rest = name.toList ++ terminator :: r₁.rest := by
  obtain ⟨⟨s, r'⟩, read, h⟩ := bind_eq_ok_iff.mp h
  obtain ⟨more, rfl, rest⟩ := rest_of_takeUntil whole read
  cases h
  simpa using rest

/-! ## What is refused -/

theorem faulty_groupPiece (c : Compiled) (n back : Nat) (r : Reader) :
    Faulty (groupPiece c n back r) :=
  .ite (fun _ => r.faulty_fail _ _) fun _ => .ok _

theorem amiss_namedPiece (c : Compiled) (whole : Whole r.rest) :
    FailsOnly (Amiss c ('\\' :: 'g' :: r.rest)) (namedPiece c r) := by
  refine (r.faulty_accept _).amiss.bind fun ⟨opened, r₁⟩ angle => ?_
  cases opened with
  | false => exact (r₁.faulty_fail _ _).amiss
  | true =>
    obtain ⟨next, advance⟩ := accept_true angle
    obtain ⟨rest, whole₁⟩ := rest_of_advance whole next advance
    refine (r₁.faulty_name _ _).amiss.bind fun ⟨name, r₂⟩ read => ?_
    have rest₁ := rest_of_name whole₁ read
    refine .ite (fun identifier => ?_) fun _ => ?_
    · split
      · exact (faulty_groupPiece _ _ _ r₂).amiss.bind fun _ _ => .ok _
      · refine .error (.inr ⟨name, rfl, identifier, ‹_›, [], r₂.rest, ?_⟩)
        rw [rest, rest₁]
        simp [Symbol.chars]
    · split
      · exact (faulty_groupPiece _ _ _ r₂).amiss.bind fun _ _ => .ok _
      · exact (r₂.faulty_fail _ _).amiss

theorem faulty_numberPiece (c : Compiled) (letter : Char) (r : Reader) :
    Faulty (numberPiece c letter r) := by
  have one : Faulty (groupPiece c (numeral 10 [letter]) 1 r >>= fun piece => pure (piece, r)) :=
    (faulty_groupPiece c _ _ r).bind fun _ _ => .ok _
  unfold numberPiece
  dsimp only
  split
  · rename_i d _
    refine .ite (fun _ => r.faulty_advance.bind fun r₁ _ => ?_) fun _ => one
    have two : Faulty
        (groupPiece c (numeral 10 [letter, d]) 2 r₁ >>= fun piece => pure (piece, r₁)) :=
      (faulty_groupPiece c _ _ r₁).bind fun _ _ => .ok _
    split
    · refine .ite (fun _ => r₁.faulty_advance.bind fun r₂ _ => ?_) fun _ => two
      exact .ite (fun _ => r₂.faulty_fail _ _) fun _ => .ok _
    · exact two
  · exact one

theorem amiss_escapePiece (c : Compiled) (whole : Whole r.rest) :
    FailsOnly (Amiss c ('\\' :: letter :: r.rest)) (escapePiece c letter r) := by
  refine .ite (fun named => ?_) fun _ => ?_
  · rw [named]
    exact amiss_namedPiece c whole
  refine .ite (fun _ => (faulty_takeWhile _ _ r).amiss.bind fun _ _ => .ok _) fun _ => ?_
  refine .ite (fun _ => (faulty_numberPiece c letter r).amiss) fun _ => ?_
  split
  · exact .ok _
  · exact .ite (fun _ => (r.faulty_fail _ _).amiss) fun _ => .ok _

/-! ## What is accepted -/

theorem within_groupPiece {n back : Nat} (h : groupPiece c n back r = .ok piece) :
    piece.Within c.groups := by
  unfold groupPiece at h
  split at h <;> cases h
  exact Nat.not_lt.mp ‹_›

/-- A piece that refers to a group, with the reader after it. -/
theorem within_reference {n back : Nat} {x : Piece × Reader}
    (h : (groupPiece c n back r >>= fun piece => pure (piece, r)) = .ok x) :
    x.1.Within c.groups ∧ x.2 = r := by
  obtain ⟨piece, found, h⟩ := bind_eq_ok_iff.mp h
  cases h
  exact ⟨within_groupPiece found, rfl⟩

theorem within_namedPiece (whole : Whole r.rest) (h : namedPiece c r = .ok (piece, r₁)) :
    piece.Within c.groups ∧ Onward r r₁ := by
  obtain ⟨⟨opened, r'⟩, angle, h⟩ := bind_eq_ok_iff.mp h
  obtain ⟨onward, -⟩ := (accept_alike (by decide) (by decide) whole).of_eq_ok angle
  dsimp only at h
  split at h
  · cases h
  obtain ⟨⟨name, r''⟩, read, h⟩ := bind_eq_ok_iff.mp h
  have onward := onward.trans ((name_alike (onward.whole whole)).of_eq_ok read).1
  dsimp only at h
  split at h
  · split at h
    · obtain ⟨within, rfl⟩ := within_reference h
      exact ⟨within, onward⟩
    · cases h
  · split at h
    · obtain ⟨within, rfl⟩ := within_reference h
      exact ⟨within, onward⟩
    · cases h

theorem within_numberPiece (h : numberPiece c letter r = .ok (piece, r₁)) :
    piece.Within c.groups ∧ Onward r r₁ := by
  have one {r : Reader} {n back : Nat}
      (h : (groupPiece c n back r >>= fun piece => pure (piece, r)) = .ok (piece, r₁)) :
      piece.Within c.groups ∧ Onward r r₁ := by
    obtain ⟨within, rfl⟩ := within_reference h
    exact ⟨within, .refl _⟩
  unfold numberPiece at h
  dsimp only at h
  split at h
  · rename_i d next
    split at h
    · obtain ⟨r', advance, h⟩ := bind_eq_ok_iff.mp h
      have onward := Onward.one next advance
      split at h
      · rename_i e next'
        split at h
        · obtain ⟨r'', advance', h⟩ := bind_eq_ok_iff.mp h
          split at h <;> cases h
          exact ⟨trivial, onward.trans (.one next' advance')⟩
        · exact (one h).imp_right onward.trans
      · exact (one h).imp_right onward.trans
    · exact one h
  · exact one h

theorem within_escapePiece (whole : Whole r.rest) (h : escapePiece c letter r = .ok (piece, r₁)) :
    piece.Within c.groups ∧ Onward r r₁ := by
  unfold escapePiece at h
  split at h
  · exact within_namedPiece whole h
  split at h
  · obtain ⟨⟨digits, r'⟩, taken, h⟩ := bind_eq_ok_iff.mp h
    cases h
    exact ⟨trivial, ((takeWhile_alike (by decide) (by decide) whole
      fun _ _ => .inl rfl).of_eq_ok taken).1⟩
  split at h
  · exact within_numberPiece h
  split at h
  · cases h
    exact ⟨trivial, .refl _⟩
  · split at h <;> cases h
    exact ⟨trivial, .refl _⟩

/-! ## Whole templates -/

theorem amiss_pieces (c : Compiled) (fuel : Nat) (whole : Whole r.rest) :
    FailsOnly (Amiss c r.rest) (pieces c fuel r) := by
  induction fuel generalizing r with
  | zero => exact .ok _
  | succ fuel ih =>
    have later {r' : Reader} (onward : Onward r r') :
        FailsOnly (Amiss c r.rest) (pieces c fuel r') :=
      amiss_mono (ih (onward.whole whole)) (onward.ends whole).isInfix
    unfold pieces
    split
    · exact .ok _
    · refine r.faulty_advance.amiss.bind fun r₁ advance => ?_
      exact (later (.one ‹_› advance)).bind fun _ _ => .ok _
    · rename_i letter next
      refine r.faulty_advance.amiss.bind fun r₁ advance => ?_
      obtain ⟨rest, whole₁⟩ := rest_of_advance whole next advance
      refine FailsOnly.bind (rest ▸ amiss_escapePiece c whole₁) fun ⟨piece, r₂⟩ read => ?_
      have onward := (Onward.one next advance).trans (within_escapePiece whole₁ read).2
      exact (later onward).bind fun _ _ => .ok _

theorem within_pieces {fuel : Nat} {t : Template} (whole : Whole r.rest)
    (h : pieces c fuel r = .ok t) : t.Within c.groups := by
  induction fuel generalizing r t with
  | zero =>
    cases h
    exact fun piece mem => nomatch mem
  | succ fuel ih =>
    unfold pieces at h
    split at h
    · cases h
      exact fun piece mem => nomatch mem
    · rename_i next
      obtain ⟨r₁, advance, h⟩ := bind_eq_ok_iff.mp h
      obtain ⟨rest, read, h⟩ := bind_eq_ok_iff.mp h
      cases h
      exact List.forall_mem_cons.mpr ⟨trivial, ih (whole_of_advance whole next advance) read⟩
    · rename_i next
      obtain ⟨r₁, advance, h⟩ := bind_eq_ok_iff.mp h
      obtain ⟨⟨piece, r₂⟩, escape, h⟩ := bind_eq_ok_iff.mp h
      have whole₁ := whole_of_advance whole next advance
      obtain ⟨first, onward⟩ := within_escapePiece whole₁ escape
      obtain ⟨rest, read, h⟩ := bind_eq_ok_iff.mp h
      cases h
      exact List.forall_mem_cons.mpr ⟨first, ih (onward.whole whole₁) read⟩

/-- A template that is accepted refers to groups of its pattern, and one that is refused has a
fault or a name for no group. -/
theorem template_meets (c : Compiled) (s : List Char) :
    Meets (fun t => Template.Within t c.groups) (Amiss c s) (template c s) := by
  refine .of_failsOnly ?_ fun t h => ?_
  · refine FailsOnly.bind (faulty_settle 0 s).amiss fun r start => ?_
    obtain ⟨rfl, whole⟩ := settle_eq_ok start
    exact amiss_pieces c _ whole
  · obtain ⟨r, start, h⟩ := bind_eq_ok_iff.mp h
    obtain ⟨rfl, whole⟩ := settle_eq_ok start
    exact within_pieces whole h

end Neogrammar.Pattern
