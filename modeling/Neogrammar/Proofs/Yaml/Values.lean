import Neogrammar.Proofs.Yaml.Faulty
import Neogrammar.Proofs.Yaml.Nodes

/-!
# What values are made of

A node that has a value at some depth and with some fuel has it at every depth, and with the fuel
that its own depth asks for: what a mapping takes over from those that it merges in is never deeper
than the mapping itself. So the value of a list is that of its items, and the value of a map
that of its entries, each read for itself.
-/
namespace Neogrammar.Yaml

/-! ## Depths -/

theorem depthOf_pos (n : Node) : 0 < depthOf n := by
  cases n <;> simp [depthOf]

theorem depthOf_le_depthOfAll {i : Node} {items : List Node} (member : i ∈ items) :
    depthOf i ≤ depthOfAll items := by
  induction items with
  | nil => cases member
  | cons n rest ih =>
    rw [depthOfAll]
    rcases List.mem_cons.mp member with rfl | member
    · exact le_max_left _ _
    · exact (ih member).trans (le_max_right _ _)

theorem depthOf_le_depthOfEntries {e : Node × Node} {entries : List (Node × Node)}
    (member : e ∈ entries) :
    depthOf e.1 ≤ depthOfEntries entries ∧ depthOf e.2 ≤ depthOfEntries entries := by
  induction entries with
  | nil => cases member
  | cons f rest ih =>
    rw [depthOfEntries]
    rcases List.mem_cons.mp member with rfl | member
    · omega
    · have := ih member
      omega

theorem depthOfEntries_append (a b : List (Node × Node)) :
    depthOfEntries (a ++ b) = max (depthOfEntries a) (depthOfEntries b) := by
  induction a with
  | nil => simp [depthOfEntries]
  | cons e rest ih => simp only [List.cons_append, depthOfEntries, ih, max_assoc]

theorem depthOf_plainKey (key : Node) : depthOf (plainKey key) = depthOf key := by
  unfold plainKey
  split <;> simp [depthOf]

mutual

theorem shallow_flatten (n : Node) :
    Meets (fun es => depthOfEntries es < depthOf n) (fun _ => True) (flatten n) := by
  cases n with
  | mapping tag entries line =>
    rw [flatten]
    refine (shallow_flattenEntries entries).bind fun ⟨merged, own⟩ shallow => ?_
    have both : depthOfEntries (merged ++ own) ≤ depthOfEntries entries :=
      (depthOfEntries_append merged own).trans_le (max_le shallow.1 shallow.2)
    exact Nat.lt_succ_of_le both
  | scalar tag text line => trivial
  | sequence tag items line => trivial

theorem shallow_flattenEntries (entries : List (Node × Node)) :
    Meets (fun r => depthOfEntries r.1 ≤ depthOfEntries entries ∧
      depthOfEntries r.2 ≤ depthOfEntries entries) (fun _ => True) (flattenEntries entries) := by
  cases entries with
  | nil => exact ⟨le_rfl, le_rfl⟩
  | cons e rest =>
    obtain ⟨key, value⟩ := e
    have others := shallow_flattenEntries rest
    have whole : depthOfEntries ((key, value) :: rest) =
        max (max (depthOf key) (depthOf value)) (depthOfEntries rest) := rfl
    rw [flattenEntries]
    refine .ite (fun _ => ?_) fun _ => ?_
    · refine (shallow_mergedEntries value).bind fun first shallow => ?_
      refine others.bind fun ⟨merged, own⟩ ⟨before, after⟩ => ?_
      have joined : depthOfEntries (first ++ merged) ≤ depthOfEntries ((key, value) :: rest) :=
        (depthOfEntries_append first merged).trans_le (max_le (by omega) (before.trans (by omega)))
      exact ⟨joined, after.trans (by omega)⟩
    · refine others.bind fun ⟨merged, own⟩ ⟨before, after⟩ => ?_
      have longer : depthOfEntries ((plainKey key, value) :: own) =
          max (max (depthOf key) (depthOf value)) (depthOfEntries own) :=
        depthOf_plainKey key ▸ rfl
      have kept : depthOfEntries own ≤ depthOfEntries rest := after
      exact ⟨before.trans (by omega), longer.trans_le (by omega)⟩

theorem shallow_mergedEntries (n : Node) :
    Meets (fun es => depthOfEntries es ≤ depthOf n) (fun _ => True) (mergedEntries n) := by
  cases n with
  | mapping tag entries line =>
    rw [mergedEntries]
    refine (shallow_flattenEntries entries).bind fun ⟨merged, own⟩ shallow => ?_
    have both : depthOfEntries (merged ++ own) ≤ depthOfEntries entries :=
      (depthOfEntries_append merged own).trans_le (max_le shallow.1 shallow.2)
    exact both.trans (Nat.le_succ _)
  | scalar tag text line => trivial
  | sequence tag items line =>
    rw [mergedEntries]
    exact (shallow_flattenAll items).mono (fun es shallow => shallow.trans (Nat.le_succ _))
      fun _ _ => trivial

theorem shallow_flattenAll (items : List Node) :
    Meets (fun es => depthOfEntries es ≤ depthOfAll items) (fun _ => True) (flattenAll items) := by
  cases items with
  | nil => exact le_rfl
  | cons item rest =>
    rw [flattenAll]
    refine (shallow_flatten item).bind fun first shallow => ?_
    refine (shallow_flattenAll rest).bind fun more after => ?_
    change depthOfEntries (more ++ first) ≤ _
    rw [depthOfEntries_append, depthOfAll]
    omega

end

/-! ## Values side by side -/

variable {α β : Type} {value : Node → Deep Datum} {depth fuel : Nat} {n key : Node} {d : Datum}

theorem both_eq_ok_iff {x : Deep α} {y : Deep β} {p : α × β} :
    both x y = .ok p ↔ x = .ok p.1 ∧ y = .ok p.2 := by
  obtain ⟨a, b⟩ := p
  cases x <;> cases y <;> simp [both]

theorem atDepth_eq_ok_iff {x : Except Fault α} {a : α} : atDepth depth x = .ok a ↔ x = .ok a := by
  cases x <;> simp [atDepth]

theorem allValues_eq_ok_iff {items : List Node} {ds : List Datum} :
    allValues value items = .ok ds ↔ List.Forall₂ (fun i d => value i = .ok d) items ds := by
  induction items generalizing ds with
  | nil => simp [allValues, eq_comm]
  | cons i rest ih =>
    rw [allValues, map_eq_ok_iff]
    constructor
    · rintro ⟨⟨d, more⟩, h, rfl⟩
      obtain ⟨first, others⟩ := both_eq_ok_iff.mp h
      exact .cons first (ih.mp others)
    · intro h
      cases h with
      | @cons _ d _ more first others =>
        exact ⟨(d, more), both_eq_ok_iff.mpr ⟨first, ih.mpr others⟩, rfl⟩

/-- A key and a value of an entry, each read for itself; the key is no collection. -/
def EntryValue (value : Node → Datum → Prop) (e : Node × Node) (v : Datum × Datum) : Prop :=
  (e.1.kind ≠ .list ∧ e.1.kind ≠ .map) ∧ value e.1 v.1 ∧ value e.2 v.2

theorem keyValue_eq_ok_iff :
    keyValue value depth key = .ok d ↔
      (key.kind ≠ .list ∧ key.kind ≠ .map) ∧ value key = .ok d := by
  unfold keyValue
  split
  · rename_i collection
    simp only [Bool.or_eq_true, beq_iff_eq] at collection
    simp only [reduceCtorEq, false_iff, not_and]
    tauto
  · rename_i simple
    simp only [Bool.or_eq_true, beq_iff_eq, not_or] at simple
    simp [simple]

theorem entryValues_eq_ok_iff {entries : List (Node × Node)} {values : List (Datum × Datum)} :
    entryValues value depth entries = .ok values ↔
      List.Forall₂ (EntryValue fun m d => value m = .ok d) entries values := by
  induction entries generalizing values with
  | nil => simp [entryValues, eq_comm]
  | cons e rest ih =>
    obtain ⟨k, v⟩ := e
    rw [entryValues, map_eq_ok_iff]
    constructor
    · rintro ⟨⟨p, more⟩, h, rfl⟩
      obtain ⟨first, others⟩ := both_eq_ok_iff.mp h
      obtain ⟨hk, hv⟩ := both_eq_ok_iff.mp first
      obtain ⟨simple, hk⟩ := keyValue_eq_ok_iff.mp hk
      exact .cons ⟨simple, hk, hv⟩ (ih.mp others)
    · intro h
      cases h with
      | @cons _ p _ more first others =>
        obtain ⟨simple, hk, hv⟩ := first
        refine ⟨(p, more), both_eq_ok_iff.mpr ⟨both_eq_ok_iff.mpr ⟨?_, hv⟩, ih.mpr others⟩, rfl⟩
        exact keyValue_eq_ok_iff.mpr ⟨simple, hk⟩

/-! ## The value of a node by its parts -/

/-- What the value of a node is made of, given those of its parts. -/
inductive Composed (value : Node → Datum → Prop) : Node → Datum → Prop
  | list {tag : Tag} {items : List Node} {line : Nat} {ds : List Datum}
      (kind : (Node.sequence tag items line).kind = .list) (each : List.Forall₂ value items ds) :
      Composed value (.sequence tag items line) (.list ds)
  | map {n : Node} {entries : List (Node × Node)} {values : List (Datum × Datum)}
      (kind : n.kind = .map) (flat : flatten n = .ok entries)
      (each : List.Forall₂ (EntryValue value) entries values) :
      Composed value n (.map (joinEntries values))
  | scalar {n : Node} {d : Datum} (kind : n.kind ∉ [.list, .map, .unknown, .merge, .default])
      (read : scalarOf n = .ok d) : Composed value n d

theorem nodeValue_eq_ok_iff :
    nodeValue (fuel + 1) depth n = .ok d ↔
      Composed (fun m x => nodeValue fuel (depth + 1) m = .ok x) n d := by
  constructor
  · intro h
    unfold nodeValue at h
    split at h
    · rename_i kind
      split at h
      · obtain ⟨ds, values, rfl⟩ := map_eq_ok_iff.mp h
        exact .list kind (allValues_eq_ok_iff.mp values)
      · cases h
    · rename_i kind
      obtain ⟨entries, flat, h⟩ := bind_eq_ok_iff.mp h
      obtain ⟨values, hv, h⟩ := bind_eq_ok_iff.mp h
      cases h
      exact .map kind (atDepth_eq_ok_iff.mp flat) (entryValues_eq_ok_iff.mp hv)
    · cases h
    · cases h
    · cases h
    · refine .scalar ?_ (atDepth_eq_ok_iff.mp h)
      simp only [List.mem_cons, List.not_mem_nil, or_false, not_or]
      exact ⟨‹_›, ‹_›, ‹_›, ‹_›, ‹_›⟩
  · intro composed
    unfold nodeValue
    cases composed with
    | list kind each =>
      rw [kind]
      exact map_eq_ok_iff.mpr ⟨_, allValues_eq_ok_iff.mpr each, rfl⟩
    | map kind flat each =>
      rw [kind]
      exact bind_eq_ok_iff.mpr ⟨_, atDepth_eq_ok_iff.mpr flat,
        bind_eq_ok_iff.mpr ⟨_, entryValues_eq_ok_iff.mpr each, rfl⟩⟩
    | scalar kind read =>
      simp only [List.mem_cons, List.not_mem_nil, or_false, not_or] at kind
      obtain ⟨list, map, unknown, merge, default⟩ := kind
      split
      · exact absurd ‹_› list
      · exact absurd ‹_› map
      · exact absurd ‹_› unknown
      · exact absurd ‹_› merge
      · exact absurd ‹_› default
      · exact atDepth_eq_ok_iff.mpr read

/-- Values of parts may be replaced by others where the parts are less deep than the node. -/
theorem Composed.mono {R S : Node → Datum → Prop} (composed : Composed R n d)
    (mono : ∀ m, depthOf m < depthOf n → ∀ x, R m x → S m x) : Composed S n d := by
  cases composed with
  | list kind each =>
    have below := (List.forall₂_and_left _ _).mpr ⟨fun _ => depthOf_le_depthOfAll, each⟩
    exact .list kind (below.imp fun i x ⟨le, hx⟩ => mono i (Nat.lt_succ_of_le le) x hx)
  | map kind flat each =>
    have shallow := (shallow_flatten n).of_eq_ok flat
    have below := (List.forall₂_and_left _ _).mpr ⟨fun _ => depthOf_le_depthOfEntries, each⟩
    refine .map kind flat (below.imp fun e v ⟨le, simple, hk, hv⟩ => ?_)
    exact ⟨simple, mono _ (le.1.trans_lt shallow) _ hk, mono _ (le.2.trans_lt shallow) _ hv⟩
  | scalar kind read => exact .scalar kind read

/-- A node that has a value somewhere has it everywhere. -/
theorem gives_of_nodeValue (h : nodeValue fuel depth n = .ok d) : Gives n d := by
  -- the parts are read with less of the old fuel, and less of the new is enough for their depths
  induction fuel generalizing depth n d with
  | zero => cases h
  | succ fuel ih =>
    intro more place deep
    have positive := depthOf_pos n
    obtain ⟨more, rfl⟩ : ∃ m, more = m + 1 := ⟨more - 1, by omega⟩
    exact nodeValue_eq_ok_iff.mpr ((nodeValue_eq_ok_iff.mp h).mono fun m below x hx =>
      ih hx _ _ (by omega))

theorem value_eq_ok_iff : n.value = .ok d ↔ Gives n d := by
  unfold Node.value
  constructor
  · intro h
    split at h
    · rename_i read
      cases h
      exact gives_of_nodeValue read
    · cases h
  · intro gives
    rw [gives _ 0 le_rfl]

/-- The value of a node is made of the values of its parts. -/
theorem value_composed : n.value = .ok d ↔ Composed (fun m x => m.value = .ok x) n d := by
  constructor
  · intro h
    have positive := depthOf_pos n
    obtain ⟨fuel, deep⟩ : ∃ fuel, depthOf n = fuel + 1 := ⟨depthOf n - 1, by omega⟩
    have read := value_eq_ok_iff.mp h (fuel + 1) 0 deep.le
    exact (nodeValue_eq_ok_iff.mp read).mono fun m _ x hx =>
      value_eq_ok_iff.mpr (gives_of_nodeValue hx)
  · intro composed
    refine value_eq_ok_iff.mpr fun fuel depth deep => ?_
    have positive := depthOf_pos n
    obtain ⟨fuel, rfl⟩ : ∃ m, fuel = m + 1 := ⟨fuel - 1, by omega⟩
    exact nodeValue_eq_ok_iff.mpr (composed.mono fun m below x hx =>
      value_eq_ok_iff.mp hx _ _ (by omega))

/-- A scalar is no collection. -/
theorem isKey_of_scalarOf (h : scalarOf n = .ok d) : d.isKey = true := by
  obtain ⟨text, -, h⟩ := bind_eq_ok_iff.mp h
  split at h
  · cases h
  · unfold scalarValue at h
    split at h
    · cases h
      rfl
    · dsimp only at h
      split at h <;> cases h
      rfl
    · obtain ⟨n, -, rfl⟩ := map_eq_ok_iff.mp h
      rfl
    · obtain ⟨x, -, rfl⟩ := map_eq_ok_iff.mp h
      rfl
    · obtain ⟨t, -, rfl⟩ := map_eq_ok_iff.mp h
      rfl
    · cases h
      rfl
    · cases h

/-- A node whose value is a list is a sequence, and its items have the values of the list. -/
theorem sequence_of_list {ds : List Datum} (h : n.value = .ok (.list ds)) :
    ∃ tag items line, n = .sequence tag items line ∧
      List.Forall₂ (fun i d => i.value = .ok d) items ds := by
  generalize hd : Datum.list ds = d at h
  cases value_composed.mp h with
  | list kind each =>
    cases hd
    exact ⟨_, _, _, rfl, each⟩
  | map => cases hd
  | scalar kind read =>
    subst hd
    cases isKey_of_scalarOf read

/-- A node whose value is a map is a mapping, and the map joins the values of its entries. -/
theorem entries_of_map {es : List (Datum × Datum)} (h : n.value = .ok (.map es)) :
    ∃ entries values, flatten n = .ok entries ∧
      List.Forall₂ (EntryValue fun m x => m.value = .ok x) entries values ∧
      es = joinEntries values := by
  generalize hd : Datum.map es = d at h
  cases value_composed.mp h with
  | list => cases hd
  | map kind flat each =>
    cases hd
    exact ⟨_, _, flat, each, rfl⟩
  | scalar kind read =>
    subst hd
    cases isKey_of_scalarOf read

end Neogrammar.Yaml
