import Neogrammar.Proofs.Project.Derivation

/-!
# Derivations that are independent of each other

A derivation reads its language and the ancestor and writes its language, whether it returns or
fails. Two of them into different languages, neither of which is the ancestor of the other
derivation, may therefore be run in either order.
-/
namespace Neogrammar

namespace Slots

variable {α : Type} (s : Slots α) {i j : Nat} (cell other : Option α)

theorem get_int_put_other {n : Int} (h : n ≠ i) : (s.put i cell).get (.int n) = s.get (.int n) := by
  simp only [get, size_put, locate_int]
  split
  · rename_i inside
    rw [ok_bind, ok_bind, find?_put_other s cell (by omega)]
  · rfl

theorem put_comm (h : i ≠ j) : (s.put i cell).put j other = (s.put j other).put i cell := by
  simp only [put, List.set_comm _ _ h]

end Slots

namespace Project

variable {p : Project} {c c' : Config} {k lang lang' ancestor ancestor' : Int} {l m : Language}

theorem language_withLanguage_ne (hk : 0 ≤ k) (h : k ≠ lang) :
    (p.withLanguage k m).language lang = p.language lang :=
  p.languages.get_int_put_other _ (by omega)

theorem withLanguage_comm (hk : 0 ≤ k) (hl : 0 ≤ lang) (h : k ≠ lang) :
    (p.withLanguage k m).withLanguage lang l = (p.withLanguage lang l).withLanguage k m := by
  simp only [withLanguage, p.languages.put_comm _ _ (show k.toNat ≠ lang.toNat by omega)]

/-! ## What a derivation writes -/

/-- A derivation leaves the project alone, or overwrites its language. -/
theorem derive_writes (p : Project) (c : Config) (lang ancestor : Int) :
    (p.derive c lang ancestor).1 = p
      ∨ ∃ m, 0 ≤ lang ∧ (p.derive c lang ancestor).1 = p.withLanguage lang m := by
  cases found : p.derivation c lang ancestor with
  | error e =>
    rw [derive, found]
    exact .inl rfl
  | ok parts =>
    obtain ⟨l, a, ps⟩ := parts
    obtain ⟨-, hl, -, -⟩ := derivation_eq_ok_iff.mp found
    rw [derive_of_derivation found]
    exact .inr ⟨_, (language_eq_ok_iff.mp hl).1, rfl⟩

/-! ## What a derivation reads -/

section
variable (hk : 0 ≤ k) (hl : k ≠ lang) (ha : k ≠ ancestor)
include hk hl ha

theorem derivation_withLanguage :
    (p.withLanguage k m).derivation c lang ancestor = p.derivation c lang ancestor := by
  have size : (p.withLanguage k m).languages.size = p.languages.size := Slots.size_put ..
  simp only [derivation, size, language_withLanguage_ne hk hl, language_withLanguage_ne hk ha]

/-- Another language has no part in a derivation and is left as it is. -/
theorem derive_withLanguage :
    (p.withLanguage k m).derive c lang ancestor =
      ((p.derive c lang ancestor).1.withLanguage k m, (p.derive c lang ancestor).2) := by
  have same := derivation_withLanguage (p := p) (c := c) (m := m) hk hl ha
  cases found : p.derivation c lang ancestor with
  | error e => simp only [derive, same, found]
  | ok parts =>
    obtain ⟨l, a, ps⟩ := parts
    have nonneg := (language_eq_ok_iff.mp (derivation_eq_ok_iff.mp found).2.1).1
    simp only [derive, same, found, withLanguage_comm hk nonneg hl]

end

/-- After a derivation into a language that another derivation does not read, this one has the
outcome that it would have had before, and writes the same. -/
theorem derive_derive (apart : lang ≠ lang') (free : lang ≠ ancestor') :
    ((p.derive c lang ancestor).1.derive c' lang' ancestor').2 =
      (p.derive c' lang' ancestor').2 := by
  rcases derive_writes p c lang ancestor with kept | ⟨m, nonneg, written⟩
  · rw [kept]
  · rw [written, derive_withLanguage nonneg apart free]

/-- Derivations into two languages, neither of which is the ancestor of the other derivation, have
the same outcomes and leave the same project in either order, also where they fail. -/
theorem derive_commutes (p : Project) (c c' : Config) (apart : lang ≠ lang')
    (free : lang ≠ ancestor') (free' : lang' ≠ ancestor) :
    ((p.derive c lang ancestor).1.derive c' lang' ancestor').2 = (p.derive c' lang' ancestor').2
      ∧ ((p.derive c' lang' ancestor').1.derive c lang ancestor).2 = (p.derive c lang ancestor).2
      ∧ ((p.derive c lang ancestor).1.derive c' lang' ancestor').1 =
        ((p.derive c' lang' ancestor').1.derive c lang ancestor).1 := by
  refine ⟨derive_derive apart free, derive_derive apart.symm free', ?_⟩
  rcases derive_writes p c lang ancestor with kept | ⟨m, nonneg, written⟩
  · rcases derive_writes p c' lang' ancestor' with kept' | ⟨m', nonneg', written'⟩
    · rw [kept, kept', kept]
    · rw [kept, written', derive_withLanguage nonneg' apart.symm free', kept]
  · rw [written, derive_withLanguage nonneg apart free]
    rcases derive_writes p c' lang' ancestor' with kept' | ⟨m', nonneg', written'⟩
    · rw [kept', written]
    · rw [written', derive_withLanguage nonneg' apart.symm free', written,
        withLanguage_comm nonneg' nonneg apart.symm]

/-- Two isles with one ancestor; the second holds a ghost. -/
def archipelago : Project := ⟨⟨[some proto, some (isle 0), some (isle 3)]⟩, .empty⟩

/-- Settings under which a derivation writes each word when it is derived. -/
def inPlace : Config := { Config.default with transactional := false }

/-- Without transactions, the second derivation has refreshed word 0 when it fails. -/
theorem derive_commutes_archipelago :
    ((1 : Int) ≠ 2 ∧ (1 : Int) ≠ 0 ∧ (2 : Int) ≠ 0)
      ∧ ((archipelago.derive inPlace 1 0).1.derive inPlace 2 0).2 = .error (.ghost 3)
      ∧ ((archipelago.derive inPlace 2 0).1.resolve ⟨2, 0⟩).map (·.mnemonic) = .ok (.text "tika")
      ∧ ((archipelago.derive inPlace 2 0).1.derive inPlace 1 0).2 = .ok ⟨1, 0, [0, 3], [4]⟩
      ∧ ((archipelago.derive inPlace 1 0).1.derive inPlace 2 0).1 =
        ((archipelago.derive inPlace 2 0).1.derive inPlace 1 0).1 := by
  have apart : (1 : Int) ≠ 2 ∧ (1 : Int) ≠ 0 ∧ (2 : Int) ≠ 0 := by decide
  have fails : (archipelago.derive inPlace 2 0).2 = .error (.ghost 3) := rfl
  have returns : (archipelago.derive inPlace 1 0).2 = .ok ⟨1, 0, [0, 3], [4]⟩ := rfl
  obtain ⟨second, first, project⟩ :=
    derive_commutes archipelago inPlace inPlace apart.1 apart.2.1 apart.2.2
  exact ⟨apart, second.trans fails, rfl, first.trans returns, project⟩

end Project
end Neogrammar
