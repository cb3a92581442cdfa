import Neogrammar.Pattern.Replace
import Neogrammar.Proofs.Pattern.Templates

/-!
# Replacing with what a template refers to

A match never ends before it starts, nor behind the end of the text. So the steps given to a
replacement are enough for it, and a template within the groups of its pattern is rendered without
asking for a group that is not there.
-/
namespace Neogrammar.Pattern

variable {text : Array Char} {k k' : Continuation} {p q : Nat} {m m' : Marks} {found : Found}
  {body : Continuation → Continuation}

/-! ## Where matches end -/

/-- One position is further on than another, and still in the text if that one is. -/
structure Further (text : Array Char) (p q : Nat) : Prop where
  le : p ≤ q
  within : p ≤ text.size → q ≤ text.size

theorem Further.refl (p : Nat) : Further text p p := ⟨Nat.le_refl p, id⟩

theorem Further.trans {o : Nat} (h : Further text o p) (more : Further text p q) :
    Further text o q :=
  ⟨Nat.le_trans h.le more.le, more.within ∘ h.within⟩

/-- What was found comes from what follows, further on. -/
def Reaches (text : Array Char) (k : Continuation) (p : Nat) (found : Found) : Prop :=
  ∃ q m, Further text p q ∧ k q m = some found

theorem Reaches.here (h : k p m = some found) : Reaches text k p found := ⟨p, m, .refl p, h⟩

theorem Reaches.after (h : Reaches text k q found) (further : Further text p q) :
    Reaches text k p found := by
  obtain ⟨q', m, further', h⟩ := h
  exact ⟨q', m, further.trans further', h⟩

theorem Reaches.bind (h : Reaches text k p found)
    (onward : ∀ {q m}, k q m = some found → Reaches text k' q found) :
    Reaches text k' p found := by
  obtain ⟨q, m, further, h⟩ := h
  exact (onward h).after further

/-- A part of a pattern finds only what what follows it finds further on. -/
def Forward (text : Array Char) (body : Continuation → Continuation) : Prop :=
  ∀ {k p m found}, body k p m = some found → Reaches text k p found

/-- Where a part that is kept ends. -/
theorem Forward.further (hb : Forward text body) (h : body accept p m = some (q, m')) :
    Further text p q := by
  obtain ⟨q', m'', further, accepted⟩ := hb h
  cases accepted
  exact further

section
variable (hb : Forward text body) {low : Nat} {high : Option Nat}
include hb

theorem reaches_repeatGreedy {fuel count : Nat} {last : Option Nat}
    (h : repeatGreedy body low high k fuel count last p m = some found) :
    Reaches text k p found := by
  induction fuel generalizing count last p m with
  | zero => cases h
  | succ fuel ih =>
    simp only [repeatGreedy] at h
    split at h
    · exact (hb h).bind ih
    split at h
    · split at h
      · rename_i again
        cases h
        exact (hb again).bind ih
      · exact .here h
    · exact .here h

theorem reaches_repeatLazy {fuel count : Nat} {last : Option Nat}
    (h : repeatLazy body low high k fuel count last p m = some found) :
    Reaches text k p found := by
  induction fuel generalizing count last p m with
  | zero => cases h
  | succ fuel ih =>
    simp only [repeatLazy] at h
    split at h
    · exact (hb h).bind ih
    split at h
    · rename_i behind
      cases h
      exact .here behind
    · split at h
      · exact (hb h).bind ih
      · cases h

theorem reaches_repeatPossessive {fuel count : Nat} {last : Option Nat}
    (h : repeatPossessive body low high k fuel count last p m = some found) :
    Reaches text k p found := by
  induction fuel generalizing count last p m with
  | zero => cases h
  | succ fuel ih =>
    simp only [repeatPossessive] at h
    split at h
    · split at h
      · exact (ih h).after (hb.further ‹_›)
      · cases h
    split at h
    · split at h
      · exact (ih h).after (hb.further ‹_›)
      · exact .here h
    · exact .here h

end

theorem further_of_getElem? {c : Char} (h : text[p]? = some c) : Further text p (p + 1) :=
  ⟨Nat.le_succ p, fun _ => (Array.getElem?_eq_some_iff.mp h).1⟩

theorem further_matchAgain {fold : Fold} {a b : Nat} (h : matchAgain text fold a b p = some q) :
    Further text p q := by
  unfold matchAgain at h
  dsimp only at h
  split at h
  · rename_i again
    cases h
    refine ⟨Nat.le_add_right p _, fun within => ?_⟩
    rcases Nat.eq_zero_or_pos (b - a) with empty | nonempty
    · omega
    -- the last character of what is found again stands in the text
    have last := List.all_eq_true.mp again (b - a - 1) (List.mem_range.mpr (by omega))
    split at last
    · rename_i there
      have := (Array.getElem?_eq_some_iff.mp there).1
      omega
    · cases last
  · cases h

theorem forward_run (node : Node) : Forward text (node.run text) := by
  induction node with
  | empty => exact fun h => .here h
  | char test =>
    intro k p m found h
    simp only [Node.run] at h
    split at h
    · split at h
      · exact (Reaches.here h).after (further_of_getElem? ‹_›)
      · cases h
    · cases h
  | seq a b iha ihb => exact fun h => (iha h).bind ihb
  | alt a b iha ihb =>
    intro k p m found h
    simp only [Node.run] at h
    split at h
    · rename_i first
      cases h
      exact iha first
    · exact ihb h
  | group n body ih => exact fun h => (ih h).bind fun h => .here h
  | «repeat» greed low high body ih =>
    intro k p m found h
    cases greed with
    | greedy => exact reaches_repeatGreedy ih h
    | lazy => exact reaches_repeatLazy ih h
    | possessive => exact reaches_repeatPossessive ih h
  | ahead negated body ih =>
    intro k p m found h
    cases negated <;> simp only [Node.run] at h <;> split at h
    · exact .here h
    · cases h
    · cases h
    · exact .here h
  | behind negated width body ih =>
    intro k p m found h
    cases negated <;> simp only [Node.run] at h <;> split at h
    · cases h
    · split at h
      · exact .here h
      · cases h
    · exact .here h
    · split at h
      · cases h
      · exact .here h
  | atomic body ih =>
    intro k p m found h
    simp only [Node.run] at h
    split at h
    · exact (Reaches.here h).after (ih.further ‹_›)
    · cases h
  | reference n fold =>
    intro k p m found h
    simp only [Node.run] at h
    split at h
    · split at h
      · exact (Reaches.here h).after (further_matchAgain ‹_›)
      · cases h
    · cases h
  | branch n yes no ihy ihn =>
    intro k p m found h
    simp only [Node.run] at h
    split at h
    · exact ihy h
    · exact ihn h
  | anchor place =>
    intro k p m found h
    simp only [Node.run] at h
    split at h
    · exact .here h
    · cases h

/-- A match ends further on, and elsewhere if it must not be empty. -/
theorem Compiled.further_of_matchAt? {c : Compiled} {nonempty : Bool}
    (h : c.matchAt? text nonempty p = some (q, m)) :
    Further text p q ∧ (nonempty = true → q ≠ p) := by
  obtain ⟨q', m', further, accepted⟩ := forward_run c.root h
  dsimp only at accepted
  split at accepted
  · cases accepted
  · rename_i allowed
    cases accepted
    refine ⟨further, ?_⟩
    rintro rfl rfl
    simp at allowed

/-! ## Rendering with all that is referred to -/

/-- What a piece of a template makes of a match. -/
def Piece.render (text : Array Char) (a b : Nat) (m : Marks) : Piece → List Char
  | .text s => s
  | .group n => groupText text a b m n

/-- What a piece of a template makes of a match, unless it asks for a group that the pattern does
not have. -/
def Compiled.renderPiece? (c : Compiled) (text : Array Char) (a b : Nat) (m : Marks) :
    Piece → Option (List Char)
  | .text s => some s
  | .group n => if n ≤ c.groups then some (groupText text a b m n) else none

def Compiled.render? (c : Compiled) (t : Template) (text : Array Char) (a b : Nat) (m : Marks) :
    Option (List Char) :=
  (t.mapM (c.renderPiece? text a b m)).map List.flatten

/-- A replacement that ends only with the text: it asks for no group that is not there, and does
not run out of steps. -/
def Compiled.replaceFrom? (c : Compiled) (t : Template) (text : Array Char) :
    Nat → Nat → Bool → Option (List Char)
  | 0, _, _ => none
  | fuel + 1, p, nonempty =>
    match c.matchAt? text nonempty p with
    | some (q, m) => do
      let replaced ← c.render? t text p q m
      let rest ← c.replaceFrom? t text fuel q (q == p)
      pure (replaced ++ rest)
    | none =>
      match text[p]? with
      | some x => (c.replaceFrom? t text fuel (p + 1) false).map (x :: ·)
      | none => some []

/-- Replace every match in a text, where nothing is missing. -/
def Compiled.replace? (c : Compiled) (t : Template) (s : List Char) : Option (List Char) :=
  c.replaceFrom? t s.toArray (2 * s.length + 2) 0 false

variable {c : Compiled} {t : Template}

theorem Piece.Within.render? {piece : Piece} (within : piece.Within c.groups) (text : Array Char)
    (a b : Nat) (m : Marks) : c.renderPiece? text a b m piece = some (piece.render text a b m) := by
  cases piece with
  | text s => rfl
  | group n => exact if_pos within

theorem Template.Within.render? (within : t.Within c.groups) (text : Array Char) (a b : Nat)
    (m : Marks) : c.render? t text a b m = some (t.render text a b m) := by
  have parts : t.mapM (c.renderPiece? text a b m) = some (t.map (Piece.render text a b m)) := by
    induction t with
    | nil => rfl
    | cons piece t ih =>
      obtain ⟨first, rest⟩ := List.forall_mem_cons.mp within
      simp only [List.mapM_cons, first.render?, ih rest]
      rfl
  rw [Compiled.render?, parts]
  rfl

/-- How many steps a replacement takes at most, from a position on. -/
def stepsLeft (text : Array Char) (p : Nat) (nonempty : Bool) : Nat :=
  2 * (text.size - p) + (if nonempty then 0 else 1)

/-- Behind a match a replacement has fewer steps left. -/
theorem stepsLeft_match {nonempty : Bool} {steps : Nat}
    (matched : c.matchAt? text nonempty p = some (q, m)) (inside : p ≤ text.size)
    (enough : stepsLeft text p nonempty < steps + 1) :
    q ≤ text.size ∧ stepsLeft text q (q == p) < steps := by
  obtain ⟨further, apart⟩ := Compiled.further_of_matchAt? matched
  have inside' := further.within inside
  have le := further.le
  refine ⟨inside', ?_⟩
  unfold stepsLeft at *
  by_cases same : q = p
  · have : nonempty = false := Bool.eq_false_iff.mpr fun must => apart must same
    simp only [same, this, beq_self_eq_true, Bool.false_eq_true, ↓reduceIte] at enough ⊢
    omega
  · simp only [beq_eq_false_iff_ne.mpr same, Bool.false_eq_true, ↓reduceIte]
    split at enough <;> omega

/-- Behind a character that is kept a replacement has fewer steps left. -/
theorem stepsLeft_step {nonempty : Bool} {steps : Nat} (inside : p < text.size)
    (enough : stepsLeft text p nonempty < steps + 1) : stepsLeft text (p + 1) false < steps := by
  unfold stepsLeft at *
  simp only [Bool.false_eq_true, ↓reduceIte]
  omega

/-- Within the groups of the pattern, nothing is missing in a replacement. -/
theorem Template.Within.replaceFrom? (within : t.Within c.groups) {fuel : Nat} {nonempty : Bool}
    (inside : p ≤ text.size) (enough : stepsLeft text p nonempty < fuel) :
    c.replaceFrom? t text fuel p nonempty = some (c.replaceFrom t text fuel p nonempty) := by
  induction fuel generalizing p nonempty with
  | zero => exact absurd enough (Nat.not_lt_zero _)
  | succ fuel ih =>
    simp only [Compiled.replaceFrom?, Compiled.replaceFrom]
    cases matched : c.matchAt? text nonempty p with
    | some found =>
      obtain ⟨q, m⟩ := found
      obtain ⟨inside', fewer⟩ := stepsLeft_match matched inside enough
      simp only [within.render?, ih inside' fewer]
      rfl
    | none =>
      cases here : text[p]? with
      | some x =>
        have inside' := (Array.getElem?_eq_some_iff.mp here).1
        simp only [ih inside' (stepsLeft_step inside' enough)]
        rfl
      | none => rfl

theorem Template.Within.replace? (within : t.Within c.groups) (s : List Char) :
    c.replace? t s = some (c.replace t s) :=
  within.replaceFrom? (Nat.zero_le _) (by simp [stepsLeft])

end Neogrammar.Pattern
