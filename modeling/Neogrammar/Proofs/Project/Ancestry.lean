import Mathlib.Data.List.Chain
import Neogrammar.Proofs.Project.Lineage

/-!
# Ancestries

The ancestry of a live language is the one list that goes up from each live language to its
ancestor, repeats nothing and cannot be made longer. It stops at a root, at an index that is not
live, or because the next ancestor is one of those already passed. The last of these is what makes
the walk up endless.
-/
namespace Neogrammar.Project

variable {p : Project} {a b c : Int} {seen chain other : List Int} {fuel : Nat}

/-- Why a walk up that has passed some indices goes no further than to `b`. -/
inductive Tip (p : Project) (seen : List Int) (b : Int) : Prop
  | root (live : p.languages.isLive b = true) (top : p.parent? b = none)
  | dead (dead : p.languages.isLive b = false)
  | again {c : Int} (parent : p.parent? b = some c) (passed : c ∈ seen)

/-- A list of indices above a language, from its parent upwards: each is the ancestor of the live
language before it, none comes twice, and none can be added. -/
structure Ascends (p : Project) (a : Int) (chain : List Int) : Prop where
  upwards : (a :: chain).IsChain fun b c => p.parent? b = some c
  distinct : (a :: chain).Nodup
  ended : p.Tip (a :: chain) (chain.getLastD a)

/-- What a walk up from `b` still comes to, when it has passed some indices. -/
def Climbs (p : Project) : List Int → Int → List Int → Prop
  | seen, b, [] => p.Tip seen b
  | seen, b, c :: chain => p.parent? b = some c ∧ c ∉ seen ∧ p.Climbs (c :: seen) c chain

theorem live_of_parent? (h : p.parent? b = some c) : p.languages.isLive b = true := by
  by_contra dead
  rw [parent?, if_neg dead] at h
  cases h

/-- A walk has come to its end where it can do no step to a new index. -/
theorem tip_iff : p.Tip seen b ↔ ∀ c, p.parent? b = some c → c ∈ seen := by
  constructor
  · rintro (⟨-, top⟩ | ⟨dead⟩ | ⟨parent, passed⟩) c h
    · rw [top] at h
      cases h
    · rw [live_of_parent? h] at dead
      cases dead
    · rw [parent] at h
      cases h
      exact passed
  · intro all
    cases parent : p.parent? b with
    | some c => exact .again parent (all c parent)
    | none =>
      cases live : p.languages.isLive b with
      | false => exact .dead live
      | true => exact .root live parent

/-! ## One list -/

theorem Climbs.unique (h : p.Climbs seen b chain) (h' : p.Climbs seen b other) : chain = other := by
  induction chain generalizing seen b other with
  | nil =>
    cases other with
    | nil => rfl
    | cons c other => exact absurd (tip_iff.mp h c h'.1) h'.2.1
  | cons c chain ih =>
    obtain ⟨parent, new, rest⟩ := h
    cases other with
    | nil => exact absurd (tip_iff.mp h' c parent) new
    | cons d other =>
      obtain ⟨parent', -, rest'⟩ := h'
      rw [parent] at parent'
      cases parent'
      rw [ih rest rest']

theorem climbs_iff : p.Climbs seen b chain ↔
    (b :: chain).IsChain (fun b c => p.parent? b = some c) ∧ chain.Nodup ∧ (∀ c ∈ chain, c ∉ seen)
      ∧ p.Tip (chain ++ seen) (chain.getLastD b) := by
  induction chain generalizing seen b with
  | nil => simp [Climbs]
  | cons c chain ih =>
    have passed : p.Tip (chain ++ c :: seen) (chain.getLastD c) ↔
        p.Tip (c :: chain ++ seen) (chain.getLastD c) := by
      simp [tip_iff, or_left_comm]
    rw [Climbs, ih, passed, List.isChain_cons_cons, List.nodup_cons, List.forall_mem_cons,
      List.getLastD_cons]
    simp only [List.mem_cons, not_or, forall_and]
    constructor
    · rintro ⟨parent, new, upwards, distinct, ⟨other, unseen⟩, ended⟩
      exact ⟨⟨parent, upwards⟩, ⟨fun again => other c again rfl, distinct⟩, ⟨new, unseen⟩, ended⟩
    · rintro ⟨⟨parent, upwards⟩, ⟨once, distinct⟩, ⟨new, unseen⟩, ended⟩
      exact ⟨parent, new, upwards, distinct, ⟨fun d hd same => once (same ▸ hd), unseen⟩, ended⟩

theorem ascends_iff : p.Ascends a chain ↔ p.Climbs [a] a chain := by
  have passed :
      p.Tip (chain ++ [a]) (chain.getLastD a) ↔ p.Tip (a :: chain) (chain.getLastD a) := by
    simp [tip_iff, or_comm]
  rw [climbs_iff, passed]
  constructor
  · rintro ⟨upwards, distinct, ended⟩
    rw [List.nodup_cons] at distinct
    refine ⟨upwards, distinct.2, fun c hc => ?_, ended⟩
    rw [List.mem_singleton]
    rintro rfl
    exact distinct.1 hc
  · rintro ⟨upwards, distinct, new, ended⟩
    exact ⟨upwards, List.nodup_cons.mpr ⟨fun h => new a h List.mem_cons_self, distinct⟩, ended⟩

/-! ## The walk -/

theorem walk_none (p : Project) (fuel : Nat) (seen : List Int) : p.walk fuel seen none = [] := by
  cases fuel <;> rfl

theorem walk_seen (h : b ∈ seen) : p.walk (fuel + 1) seen (some b) = [] := by
  rw [walk, if_pos (by simpa using h)]

theorem walk_new (h : b ∉ seen) :
    p.walk (fuel + 1) seen (some b) = b :: p.walk fuel (b :: seen) (p.parent? b) := by
  rw [walk, if_neg (by simpa using h), parent?]
  split
  · rfl
  · rw [walk_none]

/-- With a step for every slot that was not passed, the walk comes to its end. -/
theorem climbs_walk (distinct : seen.Nodup) (live : ∀ a ∈ seen, p.languages.isLive a = true)
    (enough : p.languages.size < seen.length + fuel) :
    p.Climbs seen b (p.walk fuel seen (p.parent? b)) := by
  induction fuel generalizing seen b with
  | zero =>
    have := length_le_size distinct live
    omega
  | succ fuel ih =>
    cases parent : p.parent? b with
    | none =>
      rw [walk_none, Climbs, tip_iff, parent]
      nofun
    | some c =>
      by_cases passed : c ∈ seen
      · rw [walk_seen passed]
        exact .again parent passed
      rw [walk_new passed]
      refine ⟨parent, passed, ?_⟩
      cases alive : p.languages.isLive c with
      | false =>
        rw [parent?, if_neg (by simp [alive]), walk_none]
        exact .dead alive
      | true =>
        refine ih (List.nodup_cons.mpr ⟨passed, distinct⟩) ?_ ?_
        · exact List.forall_mem_cons.mpr ⟨alive, live⟩
        · rw [List.length_cons]
          omega

/-! ## Where it ends -/

/-- Every index that has another one behind it in the list is live. -/
theorem live_of_chain (upwards : (b :: chain).IsChain fun b c => p.parent? b = some c) :
    ∀ c ∈ (b :: chain).dropLast, p.languages.isLive c = true := by
  induction chain generalizing b with
  | nil => simp
  | cons c chain ih =>
    rw [List.isChain_cons_cons] at upwards
    rw [List.dropLast_cons_cons, List.forall_mem_cons]
    exact ⟨live_of_parent? upwards.1, ih upwards.2⟩

/-- The end of an endless walk is walked for ever as well. -/
theorem Endless.last (h : p.Endless b)
    (upwards : (b :: chain).IsChain fun b c => p.parent? b = some c) :
    p.Endless (chain.getLastD b) := by
  induction chain generalizing b with
  | nil => exact h
  | cons c chain ih =>
    rw [List.isChain_cons_cons] at upwards
    obtain ⟨d, parent, endless⟩ := h.parent
    rw [upwards.1] at parent
    cases parent
    rw [List.getLastD_cons]
    exact ih endless upwards.2

/-- Every index but the last has its ancestor behind it. -/
theorem parent_of_chain (upwards : (b :: chain).IsChain fun b c => p.parent? b = some c)
    (h : c ∈ b :: chain) : c = chain.getLastD b ∨ ∃ d ∈ chain, p.parent? c = some d := by
  induction chain generalizing b with
  | nil => exact .inl (List.mem_singleton.mp h)
  | cons d chain ih =>
    rw [List.isChain_cons_cons] at upwards
    rw [List.getLastD_cons]
    rcases List.mem_cons.mp h with rfl | behind
    · exact .inr ⟨d, List.mem_cons_self, upwards.1⟩
    · exact (ih upwards.2 behind).imp_right fun ⟨e, he, parent⟩ =>
        ⟨e, List.mem_cons_of_mem d he, parent⟩

namespace Ascends

variable (h : p.Ascends a chain)
include h

/-- The walk is endless exactly if the ancestor of its end was passed already. -/
theorem endless_iff :
    p.Endless a ↔ ∃ c ∈ a :: chain, p.parent? (chain.getLastD a) = some c := by
  constructor
  · intro endless
    obtain ⟨c, parent, -⟩ := (endless.last h.upwards).parent
    exact ⟨c, tip_iff.mp h.ended c parent, parent⟩
  · rintro ⟨c, passed, parent⟩
    suffices closed : ∀ b ∈ a :: chain, p.languages.isLive b = true
        ∧ ∃ d ∈ a :: chain, p.parent? b = some d from
      endless_of_closed closed List.mem_cons_self
    intro b hb
    obtain ⟨d, hd, parent⟩ : ∃ d ∈ a :: chain, p.parent? b = some d := by
      rcases parent_of_chain h.upwards hb with rfl | ⟨d, hd, parent⟩
      · exact ⟨c, passed, parent⟩
      · exact ⟨d, List.mem_cons_of_mem a hd, parent⟩
    exact ⟨live_of_parent? parent, d, hd, parent⟩

/-- At most the last index is not live, and the language itself is left out. -/
theorem length_le : chain.length ≤ p.languages.items.length := by
  have distinct := h.distinct.sublist (List.dropLast_sublist _)
  have bound := length_le_items distinct (live_of_chain h.upwards)
  rwa [List.length_dropLast, List.length_cons, Nat.add_sub_cancel] at bound

end Ascends

/-! ## The ancestry of a live language -/

theorem language_of_live (live : p.languages.isLive a = true) :
    ∃ l, p.language a = .ok l ∧ p.parent? a = l.ancestor := by
  have parts := live
  rw [Slots.isLive, Bool.and_eq_true, decide_eq_true_eq, Option.isSome_iff_exists] at parts
  obtain ⟨nonneg, l, hl⟩ := parts
  exact ⟨l, language_eq_ok_iff.mpr ⟨nonneg, hl⟩, by simp [parent?, live, hl]⟩

theorem ancestry_eq (live : p.languages.isLive a = true) :
    p.ancestry a = .ok (p.walk (p.languages.size + 1) [a] (p.parent? a)) := by
  obtain ⟨l, hl, parent⟩ := language_of_live live
  rw [ancestry, hl, ok_bind, parent, pure_eq_ok]

theorem hasAncestryCycle_of_live (live : p.languages.isLive a = true) :
    p.hasAncestryCycle a = .ok (decide (p.Endless a)) := by
  obtain ⟨l, hl, -⟩ := language_of_live live
  obtain ⟨nonneg, hl⟩ := language_eq_ok_iff.mp hl
  rw [← Int.toNat_of_nonneg nonneg]
  exact hasAncestryCycle_eq hl

/-- A live language has one list of ancestors, which is found, and its walk up is found to be
endless exactly where that list ends because the next ancestor was passed already. -/
theorem ancestry_exact (live : p.languages.isLive a = true) :
    ∃ chain cycle, p.ancestry a = .ok chain ∧ p.hasAncestryCycle a = .ok cycle
      ∧ (∀ other, p.Ascends a other ↔ other = chain)
      ∧ (cycle = true ↔ ∃ c ∈ a :: chain, p.parent? (chain.getLastD a) = some c)
      ∧ (cycle = true ↔ p.Endless a)
      ∧ chain.length ≤ p.languages.items.length := by
  have climbs : p.Climbs [a] a (p.walk (p.languages.size + 1) [a] (p.parent? a)) := by
    refine climbs_walk (List.nodup_singleton a) (List.forall_mem_singleton.mpr live) ?_
    rw [List.length_singleton]
    omega
  have ascends := ascends_iff.mpr climbs
  refine ⟨_, _, ancestry_eq live, hasAncestryCycle_of_live live, fun other => ?_, ?_,
    decide_eq_true_iff, ascends.length_le⟩
  · rw [ascends_iff]
    constructor
    · exact fun h => h.unique climbs
    · rintro rfl
      exact climbs
  · rw [decide_eq_true_iff]
    exact ascends.endless_iff

/-- Language 0 leads into a loop that it is not in; language 3 descends from a removed one. -/
def tangled : Project :=
  let child (ancestor : Int) : Option Language :=
    some { Language.named (.text "") with ancestor := some ancestor }
  ⟨⟨[child 1, child 2, child 1, child 4, none]⟩, .empty⟩

theorem ancestry_exact_tangled :
    (tangled.languages.isLive 0 = true ∧ (∀ other, tangled.Ascends 0 other ↔ other = [1, 2])
        ∧ tangled.hasAncestryCycle 0 = .ok true ∧ tangled.Endless 0)
      ∧ tangled.languages.isLive 3 = true ∧ (∀ other, tangled.Ascends 3 other ↔ other = [4])
        ∧ tangled.hasAncestryCycle 3 = .ok false ∧ ¬tangled.Endless 3 := by
  have loop : tangled.languages.isLive 0 = true := rfl
  have orphan : tangled.languages.isLive 3 = true := rfl
  constructor
  · obtain ⟨chain, cycle, walked, found, one, -, endless, -⟩ := ancestry_exact loop
    rw [show tangled.ancestry 0 = .ok [1, 2] from rfl] at walked
    rw [show tangled.hasAncestryCycle 0 = .ok true from rfl] at found ⊢
    cases walked
    cases found
    exact ⟨loop, one, rfl, endless.mp rfl⟩
  · obtain ⟨chain, cycle, walked, found, one, -, endless, -⟩ := ancestry_exact orphan
    rw [show tangled.ancestry 3 = .ok [4] from rfl] at walked
    rw [show tangled.hasAncestryCycle 3 = .ok false from rfl] at found ⊢
    cases walked
    cases found
    exact ⟨orphan, one, rfl, fun h => Bool.false_ne_true (endless.mpr h)⟩

end Neogrammar.Project
