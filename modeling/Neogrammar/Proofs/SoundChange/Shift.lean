import Mathlib.Data.List.Forall2
import Neogrammar.Proofs.SoundChange.Compile
import Neogrammar.Proofs.Substitution

/-!
# Paired shifts

A sound change that pairs one category of letters with another, in no environment, is compiled into
one substitution for each place. Run one after the other, each to its fixpoint, they come to one
simultaneous exchange of letters, provided that no letter that is put in is one to be taken out.
-/
namespace Neogrammar

namespace Substitution

variable {s : Substitution} {text result : String}

theorem limits_of_ofTexts {pattern replacement rule : String} {limits : Limits}
    (h : ofTexts pattern replacement rule limits = .ok s) : s.limits = limits := by
  obtain ⟨-, -, -, -, within⟩ := ofTexts_eq_ok_iff.mp h
  exact within

/-- A run stops after the pass that changes nothing, if two passes are allowed. -/
theorem apply_of_settled (first : s.applyOnce text = result) (settled : s.applyOnce result = result)
    (passes : 2 ≤ s.limits.maxIterations)
    (short : result.length ≤ s.limits.maxLength text.length) : s.apply text = .ok result := by
  obtain ⟨more, hm⟩ : ∃ more, s.limits.maxIterations.toNat = more + 2 :=
    ⟨s.limits.maxIterations.toNat - 2, by omega⟩
  rw [apply, hm, Substitution.passes, first]
  by_cases same : result = text
  · rw [if_pos same]
  · rw [if_neg same, if_neg (Int.not_lt.mpr short), Substitution.passes, settled, if_pos rfl]

end Substitution

namespace SoundChange

open Pattern

/-- What becomes of a character: the letter of `ds` at the first place where it stands in `cs`, as
far as both go, and else itself. -/
def shifted (cs ds : List Char) (x : Char) : Char := ((cs.zip ds).lookup x).getD x

theorem lookup_zip {cs ds : List Char} {x d : Char} {i : Nat} (here : cs[i]? = some x)
    (first : ∀ j < i, cs[j]? ≠ some x) (hd : ds[i]? = some d) :
    (cs.zip ds).lookup x = some d := by
  induction i generalizing cs ds with
  | zero =>
    cases cs <;> cases ds <;> simp_all
  | succ i ih =>
    cases cs with
    | nil => simp at here
    | cons c cs =>
      cases ds with
      | nil => simp at hd
      | cons e ds =>
        have hc : x ≠ c := fun he => first 0 (by omega) (by simp [he])
        have tail : ∀ j < i, cs[j]? ≠ some x := fun j hj => by
          simpa using first (j + 1) (by omega)
        rw [List.zip_cons_cons, List.lookup_cons, beq_false_of_ne hc]
        exact ih (by simpa using here) tail (by simpa using hd)

/-- A character goes to the letter at the first place where it stands. -/
theorem shifted_of_first {cs ds : List Char} {x d : Char} {i : Nat} (here : cs[i]? = some x)
    (first : ∀ j < i, cs[j]? ≠ some x) (hd : ds[i]? = some d) : shifted cs ds x = d := by
  rw [shifted, lookup_zip here first hd, Option.getD_some]

/-- Both sides of the pairs, as far as there are pairs. -/
theorem mem_take_of_mem_zip {cs ds : List Char} {p : Char × Char} (h : p ∈ cs.zip ds) :
    p.1 ∈ cs.take (min cs.length ds.length) ∧ p.2 ∈ ds.take (min cs.length ds.length) := by
  rw [List.zip_eq_zip_take_min] at h
  exact List.of_mem_zip h

/-- A character that stands at no place is kept. -/
theorem shifted_of_absent {cs ds : List Char} {x : Char}
    (absent : x ∉ cs.take (min cs.length ds.length)) : shifted cs ds x = x := by
  have none_here : (cs.zip ds).lookup x = none := by
    rw [List.lookup_eq_none_iff]
    intro p hp
    refine bne_iff_ne.mpr ?_
    rintro rfl
    exact absent (mem_take_of_mem_zip hp).1
  rw [shifted, none_here, Option.getD_none]

/-- The exchange of one letter for another. -/
def exchange (p : Char × Char) (x : Char) : Char := if x = p.1 then p.2 else x

/-- Exchanges one after the other come to looking a letter up, if none puts in what another takes
out. -/
theorem foldl_exchange {ps : List (Char × Char)} (apart : ∀ p ∈ ps, ∀ q ∈ ps, p.2 ≠ q.1)
    (x : Char) : ps.foldl (fun y p => exchange p y) x = (ps.lookup x).getD x := by
  -- what one exchange puts in is left alone by all that follow
  have kept : ∀ (rest : List (Char × Char)) (d : Char), (∀ q ∈ rest, d ≠ q.1) →
      rest.foldl (fun y p => exchange p y) d = d := by
    intro rest d
    induction rest with
    | nil => exact fun _ => rfl
    | cons q rest ih =>
      intro h
      rw [List.foldl_cons, exchange, if_neg (h q (by simp))]
      exact ih fun r hr => h r (by simp [hr])
  induction ps with
  | nil => rfl
  | cons p ps ih =>
    have tail : ∀ q ∈ ps, ∀ r ∈ ps, q.2 ≠ r.1 := fun q hq r hr =>
      apart q (by simp [hq]) r (by simp [hr])
    rw [List.foldl_cons, exchange, List.lookup_cons]
    by_cases h : x = p.1
    · rw [if_pos h, h, beq_self_eq_true]
      exact kept ps p.2 fun q hq => apart p (by simp) q (by simp [hq])
    · rw [if_neg h, beq_false_of_ne h]
      exact ih tail

/-! ## One place of a shift -/

/-- Rewriting windows of one character is mapping characters. -/
theorem rewrite_single (test : Char → Bool) (d : Char) (s : List Char) :
    Window.rewrite ⟨[], [test], [], [d]⟩ s = s.map fun x => if test x then d else x := by
  induction s with
  | nil => exact Window.rewrite_nil
  | cons c s ih =>
    cases hc : test c with
    | true =>
      have fit : fits (Window.mk [] [test] [] [d]).tests (c :: s) = true := by
        simp [Window.tests, hc]
      rw [Window.rewrite_fit (by simp [Window.length, Window.tests]) fit]
      simp [Window.rewritten, Window.length, Window.tests, ih, hc]
    | false =>
      have misfit : fits (Window.mk [] [test] [] [d]).tests (c :: s) = false := by
        simp [Window.tests, hc]
      rw [Window.rewrite_misfit misfit, ih]
      simp [hc]

/-- A substitution exchanges one letter for another, within given limits. -/
structure Exchanges (limits : Limits) (p : Char × Char) (sub : Substitution) : Prop where
  limits_eq : sub.limits = limits
  applyOnce_eq : ∀ text, sub.applyOnce text = String.ofList (text.toList.map (exchange p))

variable {limits : Limits} {p : Char × Char} {sub : Substitution}

/-- An exchange is at its fixpoint after one pass. -/
theorem Exchanges.apply_eq (h : Exchanges limits p sub) (apart : p.2 ≠ p.1)
    (passes : 2 ≤ limits.maxIterations) (margin : 0 ≤ limits.growthMargin) (text : String) :
    sub.apply text = .ok (String.ofList (text.toList.map (exchange p))) := by
  have settled : ∀ x, exchange p (exchange p x) = exchange p x := by
    intro x
    by_cases hx : x = p.1
    · simp [exchange, hx, apart]
    · simp [exchange, hx]
  refine Substitution.apply_of_settled (h.applyOnce_eq text) ?_ (by rw [h.limits_eq]; exact passes)
    ?_
  · rw [h.applyOnce_eq, String.toList_ofList, List.map_map]
    congr 2
    funext x
    exact settled x
  · rw [h.limits_eq, String.length_ofList, List.length_map, String.length_toList]
    exact Limits.le_maxLength margin text.length

/-- Exchanges in a pipeline are made one after the other. -/
theorem runText_exchanges {ps : List (Char × Char)} {subs : Pipeline}
    (h : List.Forall₂ (Exchanges limits) ps subs) (apart : ∀ p ∈ ps, p.2 ≠ p.1)
    (passes : 2 ≤ limits.maxIterations) (margin : 0 ≤ limits.growthMargin) (text : String) :
    subs.runText text
      = .ok (String.ofList (text.toList.map fun x => ps.foldl (fun y p => exchange p y) x)) := by
  induction h generalizing text with
  | nil => simp
  | cons first _ ih =>
    rw [Pipeline.runText, first.apply_eq (apart _ (by simp)) passes margin, ok_bind,
      ih fun q hq => apart q (by simp [hq])]
    simp [Function.comp_def]

/-! ## The compiled shift -/

variable {t : Categories} {key value : Char} {cs ds : List Char}

/-- Letters as the graphemes of a category. -/
def graphemesOf (cs : List Char) : List Datum := cs.map fun c => .text (String.ofList [c])

/-- The sound change that turns one category into another everywhere. -/
def shift (key value : Char) : SoundChange :=
  ⟨.text (String.ofList [key]), .text (String.ofList [value]), String.ofList [marker]⟩

theorem referenced_key {graphemes : List Datum} (h : t.find? key = some graphemes) :
    t.referenced (.text (String.ofList [key])) = .ok [key] := by
  have mentions : t.mentioned [] [.char key] = [key] := by
    simp [Categories.mentioned, Categories.has, h]
  rw [Categories.referenced_text, String.toList_ofList, List.map_singleton, mentions]

theorem shortest_key (h : t.find? key = some (graphemesOf cs)) :
    shortest t [key] = cs.length := by
  simp [shortest, h, graphemesOf]

theorem resolve_key {i : Nat} {c : Char} (h : t.find? key = some (graphemesOf cs))
    (hc : cs[i]? = some c) (asPattern : Bool) :
    t.resolve (.text (String.ofList [key])) i asPattern
      = .ok (if asPattern then escape [c] else [c]) := by
  have sign : t.resolveSign i asPattern (.char key)
      = .ok (.text (String.ofList (if asPattern then escape [c] else [c]))) := by
    simp only [Categories.resolveSign, h, Categories.atIndex?_natCast, graphemesOf,
      List.getElem?_map, hc, Option.map_some, String.toList_ofList]
    cases asPattern <;> rfl
  have parts : [Sign.char key].mapM (t.resolveSign i asPattern)
      = .ok [.text (String.ofList (if asPattern then escape [c] else [c]))] := by
    rw [List.mapM_cons, sign]
    rfl
  have joined := Categories.joinTexts_texts [if asPattern then escape [c] else [c]]
  rw [List.map_singleton, List.flatten_singleton] at joined
  rw [Categories.resolve, Sign.ofDatum_text, String.toList_ofList, List.map_singleton, ok_bind,
    parts, ok_bind, joined]

/-- At one place a shift exchanges the letters there. -/
theorem compilePair_shift {i : Nat} {c d : Char} (hkey : t.find? key = some (graphemesOf cs))
    (hvalue : t.find? value = some (graphemesOf ds)) (hc : cs[i]? = some c)
    (hd : ds[i]? = some d) (limits : Limits) :
    ∃ sub, compilePair t (shift key value) (String.ofList []) (String.ofList []) limits i = .ok sub
      ∧ Exchanges limits (c, d) sub := by
  obtain ⟨sub, accepted, rewrites⟩ := ofTexts_unit .nil (.cons (readsAs_escape c) .nil) .nil
    (by simp) [d] (shift key value).text limits
  refine ⟨sub, ?_, Substitution.limits_of_ofTexts accepted, ?_⟩
  · have sides : t.expand (.text (String.ofList [])) = .ok [] := rfl
    have target := resolve_key hkey hc true
    have replacement := resolve_key hvalue hd false
    simp only [compilePair, shift, target, replacement, ok_bind, substitutionFor, sides, ↓reduceIte,
      Bool.false_eq_true]
    simpa [shift] using accepted
  · intro text
    rw [rewrites, windowOf]
    simp only [List.map_nil, List.map_cons, rewrite_single, holds_exactly, beq_iff_eq]
    rfl

/-- A shift is compiled into the exchanges at its places. -/
theorem compile_shift (hkey : t.find? key = some (graphemesOf cs))
    (hvalue : t.find? value = some (graphemesOf ds)) (limits : Limits) :
    ∃ subs, (shift key value).compile t limits = .ok subs
      ∧ List.Forall₂ (Exchanges limits) (cs.zip ds) subs := by
  have sides : sidesOf (String.ofList [marker]) = .ok (String.ofList [], String.ofList []) :=
    sidesOf_marker (by simp) (by simp)
  have compiled : (shift key value).compile t limits
      = (List.range (min cs.length ds.length)).mapM
          (compilePair t (shift key value) (String.ofList []) (String.ofList []) limits) := by
    simp only [compile, shift, sides, ok_bind, referenced_key hkey, referenced_key hvalue,
      shortest_key hkey, shortest_key hvalue, List.isEmpty_cons, Bool.false_eq_true, ↓reduceIte]
  have each : ∀ i ∈ List.range (min cs.length ds.length), ∃ sub,
      compilePair t (shift key value) (String.ofList []) (String.ofList []) limits i = .ok sub
        ∧ ∀ p, (cs.zip ds)[i]? = some p → Exchanges limits p sub := by
    intro i hi
    have hlt := List.mem_range.mp hi
    have hc : cs[i]? = some cs[i] := List.getElem?_eq_getElem (by omega)
    have hd : ds[i]? = some ds[i] := List.getElem?_eq_getElem (by omega)
    obtain ⟨sub, accepted, exchanges⟩ := compilePair_shift hkey hvalue hc hd limits
    refine ⟨sub, accepted, ?_⟩
    intro p hp
    obtain ⟨h₁, h₂⟩ := List.getElem?_zip_eq_some.mp hp
    have pair : p = (cs[i], ds[i]) :=
      Prod.ext (Option.some.inj (h₁.symm.trans hc)) (Option.some.inj (h₂.symm.trans hd))
    rw [pair]
    exact exchanges
  obtain ⟨subs, hsubs, length, all⟩ := mapM_returns each
  refine ⟨subs, compiled.trans hsubs, List.forall₂_iff_get.mpr ⟨?_, ?_⟩⟩
  · rw [length, List.length_range, List.length_zip]
  · intro i hi hj
    have hlt : i < min cs.length ds.length := by rwa [List.length_zip] at hi
    exact all i i _ (List.getElem?_range hlt) (List.getElem?_eq_getElem hj) _
      (List.getElem?_eq_getElem hi)

/-- A shift from one category of letters to another, none of which is to be taken out where it is
put in, returns on every text and exchanges all letters at once: each goes to the letter at the
first place where it stands, and every other character is kept. -/
theorem compile_shift_runs (hkey : t.find? key = some (graphemesOf cs))
    (hvalue : t.find? value = some (graphemesOf ds))
    (apart : ∀ x ∈ cs.take (min cs.length ds.length), x ∉ ds.take (min cs.length ds.length))
    (passes : 2 ≤ limits.maxIterations) (margin : 0 ≤ limits.growthMargin) :
    (∃ subs, (shift key value).compile t limits = .ok subs ∧ ∀ text : String,
      subs.run (.text text) = .ok (.text (String.ofList (text.toList.map (shifted cs ds))))) ∧
    (∀ (i : Nat) (x d : Char), cs[i]? = some x → (∀ j < i, cs[j]? ≠ some x) → ds[i]? = some d →
      shifted cs ds x = d) ∧
    ∀ x ∉ cs.take (min cs.length ds.length), shifted cs ds x = x := by
  obtain ⟨subs, compiled, exchanges⟩ := compile_shift hkey hvalue limits
  have pairs_apart : ∀ p ∈ cs.zip ds, ∀ q ∈ cs.zip ds, p.2 ≠ q.1 := by
    intro p hp q hq he
    exact apart q.1 (mem_take_of_mem_zip hq).1 (he ▸ (mem_take_of_mem_zip hp).2)
  have exchanged : (fun x => (cs.zip ds).foldl (fun y p => exchange p y) x) = shifted cs ds := by
    funext x
    exact foldl_exchange pairs_apart x
  refine ⟨⟨subs, compiled, ?_⟩, fun i x d => shifted_of_first, fun x => shifted_of_absent⟩
  intro text
  have ran := runText_exchanges exchanges (fun p hp => pairs_apart p hp p hp) passes margin text
  rw [exchanged] at ran
  rw [Pipeline.run, ran]
  rfl

/-- Two categories of letters, the first of which names a letter twice and is the longer one. -/
def stops : Categories :=
  ⟨[('C', graphemesOf ['p', 't', 'p', 'k', 'q']), ('D', graphemesOf ['b', 'd', 'v', '^']),
    ('S', [.text "ts"])]⟩

theorem compile_shift_runs_stops : ∃ subs, (shift 'C' 'D').compile stops ⟨2, 1, 0⟩ = .ok subs ∧
    subs.run (.text "patkapq") = .ok (.text "bad^abq") := by
  have hkey : stops.find? 'C' = some (graphemesOf ['p', 't', 'p', 'k', 'q']) := rfl
  have hvalue : stops.find? 'D' = some (graphemesOf ['b', 'd', 'v', '^']) := rfl
  have passes : 2 ≤ (⟨2, 1, 0⟩ : Limits).maxIterations := by decide
  obtain ⟨⟨subs, compiled, runs⟩, -⟩ :=
    compile_shift_runs hkey hvalue (by simp) passes (by decide)
  have shifts : String.ofList ("patkapq".toList.map
      (shifted ['p', 't', 'p', 'k', 'q'] ['b', 'd', 'v', '^'])) = "bad^abq" := by decide +kernel
  exact ⟨subs, compiled, by rw [runs, shifts]⟩

end SoundChange
end Neogrammar
