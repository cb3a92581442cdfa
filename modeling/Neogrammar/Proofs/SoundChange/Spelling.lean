import Neogrammar.Proofs.Project.Textual

/-!
# Spelling out categories

In a pattern a category stands for the class of its graphemes; at one place of a paired rule it is
spelled as its grapheme there. Both are done sign by sign and all at once, so a grapheme that is a
category itself is left as it is.
-/
namespace Neogrammar.Categories

open Pattern (escape)

variable {t u : Categories} {sign : Char} {i : Nat} {graphemes : List Datum}

/-- The tables that adding and taking out categories lead to, with graphemes of a kind `G`. -/
inductive Built (G : Datum → Prop) : Categories → Prop
  | empty : Built G .empty
  | add {t u : Categories} {key content : Datum} (built : Built G t)
      (kind : ∀ graphemes, content.elements? = some graphemes → ∀ g ∈ graphemes, G g)
      (added : t.add key content = .ok u) : Built G u
  | remove {t u : Categories} {key : Datum} {graphemes : List Datum} (built : Built G t)
      (removed : t.remove key = .ok (graphemes, u)) : Built G u

theorem Built.storable {G : Datum → Prop} (built : t.Built G) : t.Storable G := by
  induction built with
  | empty => exact storable_empty
  | add _ kind added ih => exact ih.add added fun gs hgs g hg _ => kind gs hgs g hg
  | remove _ removed ih => exact ih.remove removed

theorem Built.textual (built : t.Built fun g => g.isText = true) : t.Textual :=
  fun e he g hg => (built.storable.graphemes e he g hg).2

/-- The texts among some graphemes. -/
def textsOf (graphemes : List Datum) : List (List Char) :=
  graphemes.filterMap fun g => g.text?.map String.toList

theorem texts?_eq (h : ∀ g ∈ graphemes, g.isText = true) :
    texts? graphemes = some (textsOf graphemes) := by
  induction graphemes with
  | nil => rfl
  | cons g graphemes ih =>
    rw [List.forall_mem_cons] at h
    obtain ⟨s, rfl⟩ := Datum.isText_iff.mp h.1
    have rest := ih h.2
    rw [texts?] at rest ⊢
    rw [List.mapM_cons, rest]
    rfl

/-- The pattern of a sign: a category stands for any of its graphemes. -/
def classed (t : Categories) (sign : Char) : List Char :=
  match t.find? sign with
  | none => [sign]
  | some graphemes => anyOf (textsOf graphemes)

/-- The text of a grapheme at a place. -/
def textAt (graphemes : List Datum) (i : Nat) : List Char :=
  (graphemes[i]?.bind Datum.text?).elim [] String.toList

/-- What a sign is spelled as at a place: a category by its grapheme there. -/
def spelled (t : Categories) (i : Nat) (sign : Char) : List Char :=
  match t.find? sign with
  | none => [sign]
  | some graphemes => textAt graphemes i

/-- The pattern of a sign at a place: a category stands for its grapheme there alone. -/
def spelledPattern (t : Categories) (i : Nat) (sign : Char) : List Char :=
  match t.find? sign with
  | none => [sign]
  | some graphemes => escape (textAt graphemes i)

/-- What any sign is spelled as; one that is no character stands for its own text. -/
def spelledSign (t : Categories) (i : Nat) : Sign → List Char
  | .char c => t.spelled i c
  | .other d => d.text?.elim [] String.toList

/-! ## Tables of texts -/

theorem expand_classed (textual : t.Textual) (s : String) :
    t.expand (.text s) = .ok (s.toList.flatMap t.classed) := by
  rw [List.flatMap_def]
  refine expand_of_signs fun c _ => ?_
  rw [expandSign, classed]
  cases found : t.find? c with
  | none => rfl
  | some graphemes =>
    dsimp only
    rw [classOf, texts?_eq (textual _ (mem_of_find? found))]

/-- At a place that it has, a category gives a text. -/
theorem text_of_place (textual : t.Textual) (found : t.find? sign = some graphemes)
    (place : i < graphemes.length) :
    graphemes[i]? = some (.text (String.ofList (textAt graphemes i))) := by
  obtain ⟨s, text⟩ := Datum.isText_iff.mp
    (textual _ (mem_of_find? found) _ (List.getElem_mem place))
  have there : graphemes[i]? = some (.text s) := by rw [List.getElem?_eq_getElem place, text]
  simp [textAt, there, Datum.text?]

theorem resolve_spelled (textual : t.Textual) {s : String}
    (place : ∀ c ∈ s.toList, ∀ graphemes, t.find? c = some graphemes → i < graphemes.length) :
    t.resolve (.text s) i true = .ok (s.toList.flatMap (t.spelledPattern i))
      ∧ t.resolve (.text s) i false = .ok (s.toList.flatMap (t.spelled i)) := by
  have each : ∀ c ∈ s.toList,
      t.resolveSign i true (.char c) = .ok (.text (String.ofList (t.spelledPattern i c)))
        ∧ t.resolveSign i false (.char c) = .ok (.text (String.ofList (t.spelled i c))) := by
    intro c hc
    rw [spelledPattern, spelled, resolveSign, resolveSign]
    cases found : t.find? c with
    | none => exact ⟨rfl, rfl⟩
    | some graphemes =>
      have there := text_of_place textual found (place c hc graphemes found)
      simp [atIndex?_natCast, there]
  rw [List.flatMap_def, List.flatMap_def]
  exact ⟨resolve_of_signs fun c hc => (each c hc).1, resolve_of_signs fun c hc => (each c hc).2⟩

/-! ## Any table -/

theorem spelled_unmentioned {cs : List Char} (h : t.mentionedIn cs = false) (i : Nat) :
    cs.flatMap (t.spelled i) = cs := by
  have alone : ∀ c ∈ cs, t.spelled i c = [c] := by
    intro c hc
    have absent : t.find? c = none := by simpa [has] using List.any_eq_false.mp h c hc
    rw [spelled, absent]
  rw [List.flatMap_congr alone, List.flatMap_singleton']

/-- Only texts are joined. -/
theorem joinTexts_cons_eq_ok {d : Datum} {parts : List Datum} {r : List Char}
    (h : joinTexts (d :: parts) = .ok r) :
    ∃ s more, d = .text s ∧ joinTexts parts = .ok more ∧ r = s.toList ++ more := by
  cases d with
  | text s =>
    obtain ⟨more, joined, h⟩ := bind_eq_ok_iff.mp h
    cases h
    exact ⟨s, more, rfl, joined, rfl⟩
  | _ => cases h

theorem spelledSign_of_resolveSign {sign : Sign} {s : String}
    (h : t.resolveSign i false sign = .ok (.text s)) : t.spelledSign i sign = s.toList := by
  cases sign with
  | other d =>
    cases h
    rfl
  | char c =>
    rw [spelledSign, spelled]
    rw [resolveSign] at h
    cases found : t.find? c with
    | none =>
      rw [found] at h
      cases h
      simp
    | some graphemes =>
      simp only [found, atIndex?_natCast] at h
      cases there : graphemes[i]? with
      | none =>
        rw [there] at h
        cases h
      | some g =>
        cases g with
        | text g =>
          rw [there] at h
          cases h
          simp [textAt, there, Datum.text?]
        | _ =>
          rw [there] at h
          cases h

theorem joined_signs {signs : List Sign} {parts : List Datum} {r : List Char}
    (resolved : signs.mapM (t.resolveSign i false) = .ok parts) (joined : joinTexts parts = .ok r) :
    r = signs.flatMap (t.spelledSign i) := by
  induction signs generalizing parts r with
  | nil =>
    cases resolved
    cases joined
    rfl
  | cons sign signs ih =>
    rw [List.mapM_cons] at resolved
    obtain ⟨first, one, rest⟩ := bind_eq_ok_iff.mp resolved
    obtain ⟨others, resolved', same⟩ := bind_eq_ok_iff.mp rest
    cases same
    obtain ⟨s, more, rfl, joined', rfl⟩ := joinTexts_cons_eq_ok joined
    rw [List.flatMap_cons, spelledSign_of_resolveSign one, ih resolved' joined']

/-- Where a value can be resolved, it is spelled sign by sign. -/
theorem resolve_eq_ok {d : Datum} {r : List Char} (h : t.resolve d i false = .ok r) :
    ∃ signs, Sign.ofDatum d = .ok signs ∧ r = signs.flatMap (t.spelledSign i) := by
  obtain ⟨signs, hs, h⟩ := bind_eq_ok_iff.mp h
  obtain ⟨parts, resolved, joined⟩ := bind_eq_ok_iff.mp h
  exact ⟨signs, hs, joined_signs resolved joined⟩

end Neogrammar.Categories
