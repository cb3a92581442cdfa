import Neogrammar.Proofs.Descent.Claims

/-!
# Merging a vocabulary into its descendant

`Merged` relates the vocabulary of a descendant before and after a derivation that returns: which
words were refreshed, which were appended, and that all else is kept. Afterwards the vocabulary is
`Settled`: its claims match the words of the ancestor one to one.
-/
namespace Neogrammar.Descent

variable {ancestor : Int} {ps : Pipelines} {source old new vocab : Slots Word}
variable {queue left : List (Option Word)} {fuses : List (Nat × Word)} {fresh : List Word}

/-- The computed forms of `w` are what the pipelines make of the mnemonic of `origin`. -/
structure Evolved (ps : Pipelines) (origin w : Word) : Prop where
  mnemonic : ps.soundChange.run origin.mnemonic = .ok w.mnemonic
  surface : ps.toSurface.run w.mnemonic = .ok w.surface
  phonetic : ps.toPhonetic.run w.mnemonic = .ok w.phonetic

/-- Two words agree in gloss, part of speech and note. -/
def SameNotes (v w : Word) : Prop := w.gloss = v.gloss ∧ w.pos = v.pos ∧ w.note = v.note

theorem descendant_eq_ok_iff {origin w : Word} {c : Coordinate} :
    descendant origin c ps = .ok w ↔
      Evolved ps origin w ∧ SameNotes origin w ∧ w.ancestors = [c] := by
  simp only [descendant, Word.morph, Word.morphSurface, Word.morphPhonetic, bind_eq_ok_iff,
    map_eq_ok_iff, Word.entered]
  constructor
  · rintro ⟨m, hm, v, ⟨s, hs, rfl⟩, f, hf, rfl⟩
    exact ⟨⟨hm, hs, hf⟩, ⟨rfl, rfl, rfl⟩, rfl⟩
  · obtain ⟨m, g, p, n, a, s, f⟩ := w
    rintro ⟨⟨hm, hs, hf⟩, ⟨hg, hp, hn⟩, ha⟩
    simp only at hm hs hf hg hp hn ha
    subst hg hp hn ha
    exact ⟨m, hm, _, ⟨s, hs, rfl⟩, f, hf, rfl⟩

/-- A word that already has the forms of a derived one is not changed by it. -/
theorem fuse_evolved {origin w derived : Word} (h : Evolved ps origin w)
    (hd : Evolved ps origin derived) : w.fuse derived = w := by
  have hm : derived.mnemonic = w.mnemonic := Except.ok.inj (hd.mnemonic.symm.trans h.mnemonic)
  have hs : derived.surface = w.surface := by
    have := hd.surface
    rw [hm] at this
    exact Except.ok.inj (this.symm.trans h.surface)
  have hf : derived.phonetic = w.phonetic := by
    have := hd.phonetic
    rw [hm] at this
    exact Except.ok.inj (this.symm.trans h.phonetic)
  simp only [Word.fuse, hm, hs, hf]

/-! ## The words that none inherits -/

theorem inherit_eq_ok_iff {k : Nat} :
    inherit ancestor ps k queue = .ok fresh ↔
      List.Forall₂ (fun e w => descendant e.2 ⟨ancestor, e.1⟩ ps = .ok w)
        (Slots.itemsFrom k queue) fresh := by
  induction queue generalizing k fresh with
  | nil =>
    simp only [inherit, Slots.itemsFrom_nil, List.forall₂_nil_left_iff, Except.ok.injEq, eq_comm]
  | cons cell rest ih =>
    cases cell with
    | none => simp only [inherit, Slots.itemsFrom_none, ih]
    | some w =>
      simp only [inherit, bind_eq_ok_iff, Slots.itemsFrom_some, List.forall₂_cons_left_iff, ih]
      constructor
      · rintro ⟨d, hd, more, hm, he⟩
        exact ⟨d, more, hd, hm, (Except.ok.inj he).symm⟩
      · rintro ⟨d, more, hd, hm, rfl⟩
        exact ⟨d, hd, more, hm, rfl⟩

theorem inherit_failed {k : Nat} {e : Error} (h : inherit ancestor ps k queue = .error e) :
    ∃ r origin, (r, origin) ∈ Slots.itemsFrom k queue ∧
      descendant origin ⟨ancestor, r⟩ ps = .error e := by
  induction queue generalizing k with
  | nil => cases h
  | cons cell rest ih =>
    cases cell with
    | none => exact ih h
    | some w =>
      simp only [inherit, bind_eq_error_iff] at h
      rcases h with hd | ⟨d, -, hm | ⟨more, -, hp⟩⟩
      · exact ⟨k, w, List.mem_cons_self, hd⟩
      · obtain ⟨r, origin, hr, hd⟩ := ih hm
        exact ⟨r, origin, List.mem_cons_of_mem _ hr, hd⟩
      · cases hp

/-! ## Fusing -/

theorem size_fuseAll (v : Slots Word) (fuses : List (Nat × Word)) :
    (fuseAll v fuses).size = v.size := by
  induction fuses generalizing v with
  | nil => rfl
  | cons f rest ih =>
    change (fuseAll (v.put f.1 _) rest).size = v.size
    rw [ih, Slots.size_put]

theorem fuseAll_other {v : Slots Word} {i : Nat} (h : i ∉ fuses.map (·.1)) :
    (fuseAll v fuses).cells[i]? = v.cells[i]? := by
  induction fuses generalizing v with
  | nil => rfl
  | cons f rest ih =>
    simp only [List.map_cons, List.mem_cons, not_or] at h
    change (fuseAll (v.put f.1 _) rest).cells[i]? = v.cells[i]?
    rw [ih h.2]
    exact List.getElem?_set_ne (Ne.symm h.1)

theorem fuseAll_fused {v : Slots Word} {i : Nat} {w d : Word} (hn : (fuses.map (·.1)).Nodup)
    (hm : (i, d) ∈ fuses) (hw : v.find? i = some w) :
    (fuseAll v fuses).find? i = some (w.fuse d) := by
  induction fuses generalizing v with
  | nil => cases hm
  | cons f rest ih =>
    rw [List.map_cons, List.nodup_cons] at hn
    change (fuseAll (v.put f.1 ((v.find? f.1).map fun w => w.fuse f.2)) rest).find? i = _
    rcases List.mem_cons.mp hm with rfl | hm
    · rw [Slots.find?, fuseAll_other hn.1, ← Slots.find?,
        Slots.find?_put_same _ _ (Slots.lt_size_of_find? hw), hw]
      rfl
    · have hne : f.1 ≠ i := by
        rintro rfl
        exact hn.1 (List.mem_map.mpr ⟨_, hm, rfl⟩)
      exact ih hn.2 hm (by rw [Slots.find?_put_other _ _ hne, hw])

/-! ## Merging -/

/-- How a derivation turns the vocabulary `old` into `new`: the words at `fused` claim a word of the
ancestor and take the forms of its descendant, the words at `unclaimed` are inherited anew. -/
structure Merged (ps : Pipelines) (ancestor : Int) (source old new : Slots Word)
    (fused unclaimed : List Nat) : Prop where
  fused_sorted : fused.Pairwise (· < ·)
  mem_fused : ∀ i, i ∈ fused ↔ ∃ n, Claims ancestor old i n
  distinct : ∀ i j n, Claims ancestor old i n → Claims ancestor old j n → i = j
  refreshed : ∀ i w n, old.find? i = some w → w.ancestors = [⟨ancestor, n⟩] →
    ∃ (k : Nat) (origin w' : Word), n = k ∧ source.find? k = some origin ∧
      new.find? i = some w' ∧ Evolved ps origin w' ∧ SameNotes w w' ∧ w'.ancestors = w.ancestors
  kept : ∀ i, i < old.size → i ∉ fused → new.cells[i]? = old.cells[i]?
  unclaimed_sorted : unclaimed.Pairwise (· < ·)
  mem_unclaimed : ∀ r, r ∈ unclaimed ↔
    (∃ origin, source.find? r = some origin) ∧ ∀ i, ¬ Claims ancestor old i r
  size : new.size = old.size + unclaimed.length
  appended : ∀ j r, unclaimed[j]? = some r → ∃ origin w, source.find? r = some origin ∧
    new.find? (old.size + j) = some w ∧ Evolved ps origin w ∧ SameNotes origin w ∧
    w.ancestors = [⟨ancestor, r⟩]

theorem Refreshed.find?_left (h : Refreshed ancestor ps old.items source.cells fuses left)
    {r : Nat} {origin : Word} :
    (⟨left⟩ : Slots Word).find? r = some origin ↔
      source.find? r = some origin ∧ ∀ i, ¬ Claims ancestor old i r := by
  have hw := h.waiting (r : Int)
  have hl : (⟨left⟩ : Slots Word).find? r = waiting? left r := by simp [waiting?, Slots.find?]
  have hs : source.find? r = waiting? source.cells r := by simp [waiting?, Slots.find?]
  rw [hl, hw, hs]
  by_cases hm : (r : Int) ∈ claims ancestor old.items
  · obtain ⟨i, hi⟩ := mem_claims_items.mp hm
    simp only [if_pos hm, reduceCtorEq, false_iff, not_and, not_forall, not_not]
    exact fun _ => ⟨i, hi⟩
  · rw [if_neg hm]
    refine ⟨fun ho => ⟨ho, ?_⟩, And.left⟩
    intro i hi
    exact hm (mem_claims_items.mpr ⟨i, hi⟩)

/-- The scan and the inheritance of what it leaves amount to a merge. -/
theorem merged_of_ok (hr : refresh ancestor ps old.items source.cells = (fuses, .ok left))
    (hi : inherit ancestor ps 0 left = .ok fresh) :
    Merged ps ancestor source old ⟨(fuseAll old fuses).cells ++ fresh.map some⟩
        (fuses.map (·.1)) ((⟨left⟩ : Slots Word).items.map (·.1)) ∧
      fresh.length = ((⟨left⟩ : Slots Word).items.map (·.1)).length := by
  have hscan := refreshed_of_ok hr
  have hfresh := inherit_eq_ok_iff.mp hi
  rw [← Slots.items_eq_itemsFrom] at hfresh
  have hlength := hfresh.length_eq
  have hsorted : (fuses.map (·.1)).Pairwise (· < ·) := by
    rw [hscan.indices]
    exact heirs_sorted ancestor old
  refine ⟨?_, by rw [List.length_map, hlength]⟩
  constructor
  case fused_sorted => exact hsorted
  case mem_fused =>
    intro i
    rw [hscan.indices, mem_heirs_items]
  case distinct => exact nodup_claims_iff.mp hscan.distinct
  case refreshed =>
    intro i w n hw ha
    obtain ⟨origin, derived, ho, hd, hf⟩ := hscan.fused i w ⟨ancestor, n⟩ (Slots.mem_items.mpr hw)
      (coordinateInto?_eq_some_iff.mpr ⟨ha, rfl⟩)
    obtain ⟨hn, ho⟩ := waiting?_eq_some_iff.mp ho
    obtain ⟨he, -, -⟩ := descendant_eq_ok_iff.mp hd
    refine ⟨n.toNat, origin, w.fuse derived, (Int.toNat_of_nonneg hn).symm, ho, ?_,
      ⟨he.mnemonic, he.surface, he.phonetic⟩, ⟨rfl, rfl, rfl⟩, rfl⟩
    have hlt : i < (fuseAll old fuses).size := by
      rw [size_fuseAll]
      exact Slots.lt_size_of_find? hw
    rw [Slots.find?_append_lt _ hlt]
    exact fuseAll_fused (hsorted.imp Nat.ne_of_lt) hf hw
  case kept =>
    intro i hlt hm
    rw [List.getElem?_append_left (by rw [← Slots.size, size_fuseAll]; exact hlt), fuseAll_other hm]
  case unclaimed_sorted => exact List.pairwise_map.mpr (Slots.items_sorted _)
  case mem_unclaimed =>
    intro r
    simp only [List.mem_map, Prod.exists, exists_and_right, exists_eq_right, Slots.mem_items,
      hscan.find?_left]
  case size =>
    simp only [Slots.size, List.length_append, List.length_map, ← hlength]
    rw [← Slots.size, size_fuseAll, Slots.size]
  case appended =>
    intro j r hj
    rw [List.getElem?_map, Option.map_eq_some_iff] at hj
    obtain ⟨⟨r, origin⟩, he, rfl⟩ := hj
    obtain ⟨hlt, hg⟩ := List.getElem?_eq_some_iff.mp he
    have hlt' : j < fresh.length := hlength ▸ hlt
    have hd := hfresh.get hlt hlt'
    simp only [List.get_eq_getElem, hg] at hd
    obtain ⟨hevolved, hnotes, hancestors⟩ := descendant_eq_ok_iff.mp hd
    refine ⟨origin, fresh[j], ?_, ?_, hevolved, hnotes, hancestors⟩
    · exact (hscan.find?_left.mp (Slots.mem_items.mp (List.mem_of_getElem? he))).1
    · rw [← size_fuseAll old fuses, Slots.find?_append_size]
      simp [hlt']

/-! ## Settled vocabularies -/

/-- The claims of a vocabulary match the words of the ancestor one to one, and each word with a
claim has the forms that evolve from what it claims. -/
structure Settled (ps : Pipelines) (ancestor : Int) (source vocab : Slots Word) : Prop where
  evolved : ∀ i w n, vocab.find? i = some w → w.ancestors = [⟨ancestor, n⟩] →
    ∃ (k : Nat) (origin : Word), n = k ∧ source.find? k = some origin ∧ Evolved ps origin w
  distinct : ∀ i j n, Claims ancestor vocab i n → Claims ancestor vocab j n → i = j
  complete : ∀ (k : Nat) origin, source.find? k = some origin → ∃ i, Claims ancestor vocab i k

theorem Merged.claims_iff {fused unclaimed : List Nat}
    (h : Merged ps ancestor source old new fused unclaimed) {i : Nat} {n : Int} :
    Claims ancestor new i n ↔ Claims ancestor old i n ∨
      ∃ (j r : Nat), unclaimed[j]? = some r ∧ i = old.size + j ∧ n = r := by
  constructor
  · rintro ⟨w, hw, ha⟩
    by_cases hi : i < old.size
    · left
      by_cases hf : i ∈ fused
      · obtain ⟨m, v, hv, hva⟩ := (h.mem_fused i).mp hf
        obtain ⟨k, origin, w', -, -, hw', -, -, ha'⟩ := h.refreshed i v m hv hva
        cases hw.symm.trans hw'
        exact ⟨v, hv, by rw [← ha', ha]⟩
      · rw [Slots.find?, h.kept i hi hf] at hw
        exact ⟨w, hw, ha⟩
    · right
      have hlt : i - old.size < unclaimed.length := by
        have hs := Slots.lt_size_of_find? hw
        rw [h.size] at hs
        omega
      have hr : unclaimed[i - old.size]? = some unclaimed[i - old.size] :=
        List.getElem?_eq_getElem hlt
      obtain ⟨origin, w', -, hw', -, -, ha'⟩ := h.appended _ _ hr
      have hi' : old.size + (i - old.size) = i := by omega
      rw [hi', hw] at hw'
      cases hw'
      rw [ha] at ha'
      cases ha'
      exact ⟨i - old.size, _, hr, hi'.symm, rfl⟩
  · rintro (⟨w, hw, ha⟩ | ⟨j, r, hr, rfl, rfl⟩)
    · obtain ⟨k, origin, w', -, -, hw', -, -, ha'⟩ := h.refreshed i w n hw ha
      exact ⟨w', hw', by rw [ha', ha]⟩
    · obtain ⟨origin, w, -, hw, -, -, ha⟩ := h.appended j r hr
      exact ⟨w, hw, ha⟩

theorem Merged.settled {fused unclaimed : List Nat}
    (h : Merged ps ancestor source old new fused unclaimed) :
    Settled ps ancestor source new := by
  have hfree : ∀ (i j r : Nat), unclaimed[j]? = some r → ¬ Claims ancestor old i r :=
    fun i j r hr => ((h.mem_unclaimed r).mp (List.mem_of_getElem? hr)).2 i
  constructor
  case evolved =>
    intro i w n hw ha
    rcases h.claims_iff.mp ⟨w, hw, ha⟩ with ⟨v, hv, hva⟩ | ⟨j, r, hr, rfl, rfl⟩
    · obtain ⟨k, origin, w', hk, ho, hw', he, -, -⟩ := h.refreshed i v n hv hva
      cases hw.symm.trans hw'
      exact ⟨k, origin, hk, ho, he⟩
    · obtain ⟨origin, w', ho, hw', he, -, -⟩ := h.appended j r hr
      cases hw.symm.trans hw'
      exact ⟨r, origin, rfl, ho, he⟩
  case distinct =>
    intro i j n hi hj
    rcases h.claims_iff.mp hi with hi | ⟨x, r, hr, rfl, rfl⟩ <;>
      rcases h.claims_iff.mp hj with hj | ⟨y, q, hq, rfl, he⟩
    · exact h.distinct i j n hi hj
    · subst he
      exact absurd hi (hfree i y q hq)
    · exact absurd hj (hfree j x r hr)
    · cases Int.ofNat.inj he
      have hn : unclaimed.Nodup := h.unclaimed_sorted.imp Nat.ne_of_lt
      obtain ⟨hx, -⟩ := List.getElem?_eq_some_iff.mp hr
      rw [(List.getElem?_inj hx hn).mp (hr.trans hq.symm)]
  case complete =>
    intro k origin ho
    by_cases hc : ∃ i, Claims ancestor old i k
    · obtain ⟨i, hi⟩ := hc
      exact ⟨i, h.claims_iff.mpr (.inl hi)⟩
    · have hm := (h.mem_unclaimed k).mpr ⟨⟨origin, ho⟩, not_exists.mp hc⟩
      obtain ⟨j, hj⟩ := List.mem_iff_getElem?.mp hm
      exact ⟨old.size + j, h.claims_iff.mpr (.inr ⟨j, k, hj, rfl, rfl⟩)⟩

theorem fuseAll_self {v : Slots Word}
    (h : ∀ f ∈ fuses, ∃ w, v.find? f.1 = some w ∧ w.fuse f.2 = w) : fuseAll v fuses = v := by
  induction fuses with
  | nil => rfl
  | cons f rest ih =>
    obtain ⟨w, hw, hf⟩ := h f List.mem_cons_self
    change fuseAll (v.put f.1 ((v.find? f.1).map fun w => w.fuse f.2)) rest = v
    rw [hw, Option.map_some, hf, Slots.put_find? hw]
    exact ih fun g hg => h g (List.mem_cons_of_mem _ hg)

/-- A settled vocabulary is scanned to the end, its words are fused with their own forms, and
nothing is left to inherit. -/
theorem Settled.refresh (h : Settled ps ancestor source vocab) :
    ∃ fuses left, refresh ancestor ps vocab.items source.cells = (fuses, .ok left) ∧
      fuseAll vocab fuses = vocab ∧ (⟨left⟩ : Slots Word).items = [] := by
  have hmet : ∀ i w c, (i, w) ∈ vocab.items → coordinateInto? ancestor w = some c →
      ∃ origin derived, waiting? source.cells c.word = some origin ∧
        descendant origin c ps = .ok derived := by
    rintro i w ⟨l, n⟩ hm hc
    obtain ⟨ha, rfl⟩ := coordinateInto?_eq_some_iff.mp hc
    obtain ⟨k, origin, rfl, ho, he⟩ := h.evolved i w n (Slots.mem_items.mp hm) ha
    refine ⟨origin, ⟨w.mnemonic, origin.gloss, origin.pos, origin.note, [⟨l, k⟩], w.surface,
      w.phonetic⟩, waiting?_eq_some_iff.mpr ⟨by simp, by simpa using ho⟩, ?_⟩
    exact descendant_eq_ok_iff.mpr ⟨⟨he.mnemonic, he.surface, he.phonetic⟩, ⟨rfl, rfl, rfl⟩, rfl⟩
  obtain ⟨fuses, left, hr⟩ := refresh_returns (nodup_claims_iff.mpr h.distinct) hmet
  have hscan := refreshed_of_ok hr
  refine ⟨fuses, left, hr, fuseAll_self ?_, ?_⟩
  · intro f hf
    obtain ⟨w, c, origin, hm, hc, ho, hd⟩ :=
      hscan.of_mem_fuses (hscan.indices ▸ heirs_sorted ancestor vocab) hf
    obtain ⟨ha, hl⟩ := coordinateInto?_eq_some_iff.mp hc
    have hw := Slots.mem_items.mp hm
    obtain ⟨k, origin', hk, ho', he⟩ := h.evolved f.1 w c.word hw (by rw [ha, ← hl])
    obtain ⟨-, ho⟩ := waiting?_eq_some_iff.mp ho
    rw [hk, Int.toNat_natCast] at ho
    cases ho.symm.trans ho'
    exact ⟨w, hw, fuse_evolved he (descendant_eq_ok_iff.mp hd).1⟩
  · rw [List.eq_nil_iff_forall_not_mem]
    rintro ⟨r, origin⟩ hm
    obtain ⟨ho, hfree⟩ := hscan.find?_left.mp (Slots.mem_items.mp hm)
    obtain ⟨i, hi⟩ := h.complete r origin ho
    exact hfree i hi

end Neogrammar.Descent
