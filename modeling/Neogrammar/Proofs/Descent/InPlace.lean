import Neogrammar.Proofs.Descent.Merge

/-!
# Derivation in place

A derivation can also write each derived word into the vocabulary as soon as it has it, reading
every later word from the vocabulary as it stands by then. No word is read again after it was
written, and the queue belongs to the other language, so this comes to the same as collecting the
derived words and fusing them at the end. `Partly` says what such a derivation leaves behind when
it stops before a word.
-/
namespace Neogrammar.Descent

variable {ancestor : Int} {ps : Pipelines} {source vocab old new : Slots Word}
variable {items : List (Nat × Word)} {queue left : List (Option Word)}
variable {fuses : List (Nat × Word)} {i stop : Nat} {w : Word} {e : Error}

/-- Refresh the words at some indices one after the other, each written at once. The result is the
vocabulary after that, the indices that were written, and the queue that is left or the failure. -/
def scanInPlace (ancestor : Int) (ps : Pipelines) :
    List Nat → Slots Word → List (Option Word) →
      Slots Word × List Nat × Except Error (List (Option Word))
  | [], vocab, queue => (vocab, [], .ok queue)
  | i :: rest, vocab, queue =>
    match vocab.find? i with
    | none => scanInPlace ancestor ps rest vocab queue
    | some w =>
      match coordinateInto? ancestor w with
      | none => scanInPlace ancestor ps rest vocab queue
      | some c =>
        match waiting? queue c.word with
        | none => (vocab, [], .error (.ghost i))
        | some source =>
          match descendant source c ps with
          | .error e => (vocab, [], .error e)
          | .ok derived =>
            let (vocab, fused, result) := scanInPlace ancestor ps rest
              (vocab.put i (some (w.fuse derived))) (queue.set c.word.toNat none)
            (vocab, i :: fused, result)

/-- Merge the vocabulary of `ancestor` into `language` in place: the ancestor is set first, each
word is written when it is derived, and what a failure finds written stays. -/
def deriveInPlace (language ancestor : Language) (l a : Int) (ps : Pipelines) :
    Language × Except Error Report :=
  let (vocab, fused, result) := scanInPlace a ps (language.vocab.items.map (·.1)) language.vocab
    ancestor.vocab.cells
  let written := { language with ancestor := some a, vocab }
  match result with
  | .error e => (written, .error e)
  | .ok queue =>
    match inherit a ps 0 queue with
    | .error e => (written, .error e)
    | .ok fresh =>
      ({ written with vocab := ⟨vocab.cells ++ fresh.map some⟩ },
        .ok ⟨l, a, fused, (List.range fresh.length).map (vocab.size + ·)⟩)

/-! ## Writing at once or at the end -/

theorem fuseAll_cons (h : vocab.find? i = some w) (derived : Word) (fuses : List (Nat × Word)) :
    fuseAll vocab ((i, derived) :: fuses) =
      fuseAll (vocab.put i (some (w.fuse derived))) fuses := by
  change fuseAll (vocab.put i ((vocab.find? i).map fun w => w.fuse derived)) fuses = _
  rw [h]
  rfl

/-- A scan in place over live words writes what the staged scan collects. -/
theorem scanInPlace_eq (live : ∀ f ∈ items, vocab.find? f.1 = some f.2)
    (distinct : (items.map (·.1)).Nodup) :
    scanInPlace ancestor ps (items.map (·.1)) vocab queue =
      (fuseAll vocab (refresh ancestor ps items queue).1,
        (refresh ancestor ps items queue).1.map (·.1), (refresh ancestor ps items queue).2) := by
  induction items generalizing vocab queue with
  | nil => rfl
  | cons item rest ih =>
    obtain ⟨i, w⟩ := item
    rw [List.map_cons, List.nodup_cons] at distinct
    have here : vocab.find? i = some w := live (i, w) List.mem_cons_self
    have later : ∀ f ∈ rest, vocab.find? f.1 = some f.2 :=
      fun f hf => live f (List.mem_cons_of_mem _ hf)
    simp only [List.map_cons, scanInPlace, here]
    cases hc : coordinateInto? ancestor w with
    | none => simp only [ih later distinct.2, refresh_skip hc]
    | some c =>
      cases hq : waiting? queue c.word with
      | none =>
        simp only [hq, refresh_ghost hc hq]
        rfl
      | some source =>
        cases hd : descendant source c ps with
        | error e =>
          simp only [hq, hd, refresh_error hc hq hd]
          rfl
        | ok derived =>
          -- the word just written is not among those still to be read
          have unread : ∀ f ∈ rest,
              (vocab.put i (some (w.fuse derived))).find? f.1 = some f.2 := by
            intro f hf
            have apart : i ≠ f.1 := by
              rintro rfl
              exact distinct.1 (List.mem_map.mpr ⟨f, hf, rfl⟩)
            rw [Slots.find?_put_other _ _ apart]
            exact later f hf
          simp only [hq, hd, ih unread distinct.2, refresh_take hc hq hd, fuseAll_cons here,
            List.map_cons]

/-- Without a transaction a derivation works in place. -/
theorem derive_in_place (language source : Language) (l a : Int) (ps : Pipelines) :
    derive language source l a ps false = deriveInPlace language source l a ps := by
  have live : ∀ f ∈ language.vocab.items, language.vocab.find? f.1 = some f.2 :=
    fun f hf => Slots.mem_items.mp hf
  have distinct : (language.vocab.items.map (·.1)).Nodup :=
    (List.pairwise_map.mpr language.vocab.items_sorted).imp Nat.ne_of_lt
  rw [derive, deriveInPlace, scanInPlace_eq live distinct]
  exact rfl

/-! ## What a failure leaves behind -/

/-- How a derivation in place that stops before index `stop` has turned the vocabulary `old` into
`new`: the words before it that claim a word of the ancestor have taken the forms of its
descendant, with all that was authored in them kept, and every other slot is as it was. -/
structure Partly (ps : Pipelines) (ancestor : Int) (source old new : Slots Word) (stop : Nat) :
    Prop where
  size : new.size = old.size
  kept : ∀ i, (∀ n, Claims ancestor old i n → stop ≤ i) → new.cells[i]? = old.cells[i]?
  written : ∀ i w n, i < stop → old.find? i = some w → w.ancestors = [⟨ancestor, n⟩] →
    ∃ (k : Nat) (origin w' : Word), n = k ∧ source.find? k = some origin ∧
      new.find? i = some w' ∧ Evolved ps origin w' ∧ SameNotes w w' ∧ w'.ancestors = w.ancestors

/-- Why a derivation stops with `e` before index `stop`: the claim of the word there cannot be met,
because nothing waits for it or because the word it names has no descendant; or all words were
refreshed, and a word of the ancestor that none of them claims has no descendant. -/
def StopsBefore (ps : Pipelines) (ancestor : Int) (source old : Slots Word) (e : Error)
    (stop : Nat) : Prop :=
  (∃ n, Claims ancestor old stop n ∧
      (e = .ghost stop ∨ ∃ (k : Nat) (origin : Word), n = k ∧ source.find? k = some origin ∧
        descendant origin ⟨ancestor, n⟩ ps = .error e)) ∨
    stop = old.size ∧ ∃ (r : Nat) (origin : Word), source.find? r = some origin ∧
      (∀ i, ¬ Claims ancestor old i r) ∧ descendant origin ⟨ancestor, r⟩ ps = .error e

/-- A scan over the words before an index leaves the vocabulary refreshed up to it. -/
theorem Refreshed.partly (h : Refreshed ancestor ps items source.cells fuses left)
    (scanned : ∀ i w, (i, w) ∈ items ↔ old.find? i = some w ∧ i < stop)
    (sorted : (items.map (·.1)).Pairwise (· < ·)) :
    Partly ps ancestor source old (fuseAll old fuses) stop := by
  have distinct : (fuses.map (·.1)).Nodup := by
    rw [h.indices]
    exact ((List.pairwise_map.mp sorted).filter _ |> List.pairwise_map.mpr).imp Nat.ne_of_lt
  constructor
  case size => exact size_fuseAll old fuses
  case kept =>
    intro i hi
    refine fuseAll_other ?_
    rw [h.indices, mem_heirs]
    rintro ⟨w, n, hm, ha⟩
    obtain ⟨hw, hlt⟩ := (scanned i w).mp hm
    exact absurd hlt (Nat.not_lt.mpr (hi n ⟨w, hw, ha⟩))
  case written =>
    intro i w n hlt hw ha
    obtain ⟨origin, derived, ho, hd, hf⟩ := h.fused i w ⟨ancestor, n⟩ ((scanned i w).mpr ⟨hw, hlt⟩)
      (coordinateInto?_eq_some_iff.mpr ⟨ha, rfl⟩)
    obtain ⟨hn, ho⟩ := waiting?_eq_some_iff.mp ho
    obtain ⟨he, -, -⟩ := descendant_eq_ok_iff.mp hd
    exact ⟨n.toNat, origin, w.fuse derived, (Int.toNat_of_nonneg hn).symm, ho,
      fuseAll_fused distinct hf hw, ⟨he.mnemonic, he.surface, he.phonetic⟩, ⟨rfl, rfl, rfl⟩, rfl⟩

/-- A scan that fails stops before the word where it fails. -/
theorem partly_of_refresh_failed
    (h : refresh ancestor ps old.items source.cells = (fuses, .error e)) :
    ∃ stop, StopsBefore ps ancestor source old e stop ∧
      Partly ps ancestor source old (fuseAll old fuses) stop := by
  obtain ⟨before, i, w, ⟨l, n⟩, after, left, hitems, hb, hc, hstop⟩ := refresh_failed h
  obtain ⟨ha, rfl⟩ := coordinateInto?_eq_some_iff.mp hc
  have hscan := refreshed_of_ok hb
  have hw : old.find? i = some w := Slots.mem_items.mp (by rw [hitems]; simp)
  have sorted : (before.map (·.1)).Pairwise (· < ·) := by
    have all := old.items_sorted
    rw [hitems, List.pairwise_append] at all
    exact List.pairwise_map.mpr all.1
  refine ⟨i, .inl ⟨n, ⟨w, hw, ha⟩, ?_⟩,
    hscan.partly (fun j v => Slots.mem_items_before hitems) sorted⟩
  rcases hstop with ⟨-, he⟩ | ⟨origin, ho, hd⟩
  · exact .inl he
  · right
    rw [hscan.waiting] at ho
    split at ho
    · cases ho
    · obtain ⟨hn, ho⟩ := waiting?_eq_some_iff.mp ho
      exact ⟨n.toNat, origin, (Int.toNat_of_nonneg hn).symm, ho, hd⟩

/-- A derivation that fails after its scan has refreshed all words. -/
theorem partly_of_inherit_failed
    (hr : refresh ancestor ps old.items source.cells = (fuses, .ok left))
    (hi : inherit ancestor ps 0 left = .error e) :
    ∃ stop, StopsBefore ps ancestor source old e stop ∧
      Partly ps ancestor source old (fuseAll old fuses) stop := by
  have hscan := refreshed_of_ok hr
  obtain ⟨r, origin, hm, hd⟩ := inherit_failed hi
  rw [← Slots.items_eq_itemsFrom, Slots.mem_items] at hm
  obtain ⟨ho, hfree⟩ := hscan.find?_left.mp hm
  refine ⟨old.size, .inr ⟨rfl, r, origin, ho, hfree, hd⟩, hscan.partly ?_ ?_⟩
  · intro j v
    rw [Slots.mem_items]
    exact ⟨fun hv => ⟨hv, Slots.lt_size_of_find? hv⟩, And.left⟩
  · exact List.pairwise_map.mpr old.items_sorted

end Neogrammar.Descent
