import Neogrammar.Proofs.Project.Roster
import Neogrammar.Proofs.Yaml.Values
import Neogrammar.Request.Basic

/-!
# Lines of changes

As in any map, the last key that is the text `changes` tells what the changes of a request are, and
they are the items of its sequence. Their lines, though, are taken from the first sequence under a
key that is written `changes`. Where that is the same sequence, be it merged in or written in
brackets, each change has the line on which its item starts; else it may have another, or none.
-/
namespace Neogrammar

/-! ## Last values -/

namespace Datum

variable {key v w : Datum} {s : String} {es : List (Datum × Datum)}

theorem eq_text_of_same (h : (text s).same key = true) : key = .text s := by
  cases key with
  | text t =>
    simp only [same, beq_iff_eq] at h
    rw [h]
  | _ => simp [same, quantity?] at h

theorem field?_cons_same : field? s ((.text s, v) :: es) = some v := by
  simp [field?]

theorem field?_cons_other (h : key ≠ .text s) : field? s ((key, v) :: es) = field? s es := by
  cases key with
  | text t =>
    have other : t ≠ s := fun same => h (same ▸ rfl)
    simp [field?, other]
  | _ => rfl

theorem field?_put_same : field? s (put (.text s) v es) = some v := by
  induction es with
  | nil => exact field?_cons_same
  | cons e rest ih =>
    obtain ⟨k, w⟩ := e
    rw [put]
    split
    · rename_i found
      rw [same_text_iff.mp found]
      exact field?_cons_same
    · rename_i other
      rw [field?_cons_other fun found => other (same_text_iff.mpr found), ih]

theorem field?_put_other (h : key ≠ .text s) : field? s (put key v es) = field? s es := by
  induction es with
  | nil => exact field?_cons_other h
  | cons e rest ih =>
    obtain ⟨k, w⟩ := e
    rw [put]
    by_cases here : k = .text s
    · subst here
      have other : ¬(text s).same key = true := fun found => h (eq_text_of_same found)
      rw [if_neg other, field?_cons_same, field?_cons_same]
    · rw [field?_cons_other here]
      split
      · exact field?_cons_other here
      · rw [field?_cons_other here, ih]

/-- Where entries are joined, a text leads to the value of the last entry with that key. -/
theorem last_of_field?_joinEntries (h : field? s (Yaml.joinEntries es) = some v) :
    ∃ before after, es = before ++ (.text s, v) :: after ∧ ∀ e ∈ after, e.1 ≠ .text s := by
  -- an entry that comes last settles its key, and leaves the values of the others as they were
  induction es using List.reverseRecOn with
  | nil => cases h
  | append_singleton es e ih =>
    obtain ⟨key, w⟩ := e
    rw [Yaml.joinEntries, List.foldl_concat] at h
    change field? s (put key w (Yaml.joinEntries es)) = some v at h
    by_cases here : key = .text s
    · subst here
      cases field?_put_same.symm.trans h
      exact ⟨es, [], rfl, by simp⟩
    · rw [field?_put_other here] at h
      obtain ⟨before, after, rfl, others⟩ := ih h
      refine ⟨before, after ++ [(key, w)], by simp, fun e he => ?_⟩
      rcases List.mem_append.mp he with he | he
      · exact others e he
      · rw [List.mem_singleton.mp he]
        exact here

end Datum

namespace Request

open Yaml

variable {node : Node} {items first : List Node} {lines : List Nat} {d : Datum} {r : Request}
  {language : Datum} {index : Nat} {ds : List Datum} {changes : List Change}

/-! ## The two sequences -/

/-- The sequence whose items are the changes: it is under the last key with the text `changes`. -/
inductive Supplies (node : Node) (items : List Node) : Prop
  | last {before after : List (Node × Node)} {key : Node} {tag : Tag} {line : Nat}
      (entries : entriesOf node = before ++ (key, .sequence tag items line) :: after)
      (named : key.value = .ok (.text "changes"))
      (others : ∀ e ∈ after, e.1.value ≠ .ok (.text "changes")) : Supplies node items

/-- The sequence whose lines the changes get: it is the first under a scalar written `changes`. -/
inductive Leads (node : Node) (items : List Node) : Prop
  | first {before after : List (Node × Node)} {tag tag' : Tag} {line line' : Nat}
      (entries : entriesOf node =
        before ++ (.scalar tag "changes" line, .sequence tag' items line') :: after)
      (none : ∀ e ∈ before, linesUnder e = none) : Leads node items

/-- Of a list cut at its last member of a kind, the member is known. -/
theorem last_unique {α : Type} {P : α → Prop} {before after before' after' : List α} {a b : α}
    (cut : before ++ a :: after = before' ++ b :: after') (ha : P a) (hb : P b)
    (last : ∀ e ∈ after, ¬P e) (last' : ∀ e ∈ after', ¬P e) : a = b := by
  rcases List.append_eq_append_iff.mp cut with ⟨between, -, tail⟩ | ⟨between, -, tail⟩
  · cases between with
    | nil => exact (List.cons.inj tail).1
    | cons e between =>
      have later : b ∈ after := by simp [(List.cons.inj tail).2]
      exact absurd hb (last b later)
  · cases between with
    | nil => exact (List.cons.inj tail).1.symm
    | cons e between =>
      have later : a ∈ after' := by simp [(List.cons.inj tail).2]
      exact absurd ha (last' a later)

/-- No two sequences supply the changes of one request. -/
theorem Supplies.unique {other : List Node} (h : Supplies node items) (h' : Supplies node other) :
    items = other := by
  obtain ⟨entries, named, others⟩ := h
  obtain ⟨entries', named', others'⟩ := h'
  have same := last_unique (P := fun e => e.1.value = .ok (.text "changes"))
    (entries.symm.trans entries') named named' others others'
  cases same
  rfl

theorem entriesOf_eq {entries : List (Node × Node)} (h : flatten node = .ok entries) :
    entriesOf node = entries := by
  cases node with
  | mapping => simp [entriesOf, h]
  | _ => cases h

theorem linesUnder_eq_some_iff {e : Node × Node} :
    linesUnder e = some lines ↔ ∃ tag tag' line line' items,
      e = (.scalar tag "changes" line, .sequence tag' items line') ∧
        lines = items.map fun item => item.line + 1 := by
  unfold linesUnder
  split
  · simp [eq_comm]
  · rename_i other
    simp only [reduceCtorEq, false_iff, not_exists, not_and]
    rintro tag tag' line line' items rfl
    exact absurd rfl (other tag line tag' items line')

theorem findSome?_linesUnder_iff :
    (entriesOf node).findSome? linesUnder = some lines ↔
      ∃ first, Leads node first ∧ lines = first.map fun item => item.line + 1 := by
  rw [List.findSome?_eq_some_iff]
  constructor
  · rintro ⟨before, e, after, entries, here, none⟩
    obtain ⟨tag, tag', line, line', first, rfl, rfl⟩ := linesUnder_eq_some_iff.mp here
    exact ⟨first, .first entries none, rfl⟩
  · rintro ⟨first, ⟨entries, none⟩, rfl⟩
    exact ⟨_, _, _, entries, linesUnder_eq_some_iff.mpr ⟨_, _, _, _, _, rfl, rfl⟩, none⟩

/-- The line that is noted for an index is that of the item of the leading sequence. -/
theorem linesOfChanges_getElem? {i n : Nat} :
    (linesOfChanges node)[i]? = some n ↔
      ∃ first item, Leads node first ∧ first[i]? = some item ∧ n = item.line + 1 := by
  unfold linesOfChanges
  cases found : (entriesOf node).findSome? linesUnder with
  | none =>
    simp only [Option.getD_none, List.getElem?_nil, reduceCtorEq, false_iff, not_exists, not_and]
    intro first item leads
    have there := findSome?_linesUnder_iff.mpr ⟨first, leads, rfl⟩
    rw [found] at there
    cases there
  | some lines =>
    obtain ⟨first, leads, rfl⟩ := findSome?_linesUnder_iff.mp found
    simp only [Option.getD_some, List.getElem?_map, Option.map_eq_some_iff]
    constructor
    · rintro ⟨item, hi, rfl⟩
      exact ⟨first, item, leads, hi, rfl⟩
    · rintro ⟨other, item, leads', hi, rfl⟩
      have same := found.symm.trans (findSome?_linesUnder_iff.mpr ⟨other, leads', rfl⟩)
      have noted := congrArg (·[i]?) (Option.some.inj same)
      simp only [List.getElem?_map, hi, Option.map_some, Option.map_eq_some_iff] at noted
      obtain ⟨item', hi', line⟩ := noted
      exact ⟨item', hi', line⟩

/-! ## Changes from data -/

theorem line_of_changeOfData {line : Option Nat} {c : Change}
    (h : changeOfData language index line d = .ok c) : c.line = line := by
  unfold changeOfData at h
  split at h
  · split at h
    · cases h
    · split at h
      · cases h
      · split at h
        · cases h
          rfl
        · cases h
  · cases h

/-- Each change is read from its item, with the line at its index. -/
theorem changesOfData_getElem? (h : changesOfData language index lines ds = .ok changes) :
    changes.length = ds.length ∧ ∀ (i : Nat) c d, changes[i]? = some c → ds[i]? = some d →
      changeOfData language (index + i) lines[i]? d = .ok c := by
  induction ds generalizing index lines changes with
  | nil =>
    cases h
    exact ⟨rfl, by simp⟩
  | cons d rest ih =>
    obtain ⟨first, hf, h⟩ := bind_eq_ok_iff.mp h
    obtain ⟨more, hm, h⟩ := bind_eq_ok_iff.mp h
    cases h
    obtain ⟨length, each⟩ := ih hm
    refine ⟨by simp [length], fun i c x hc hx => ?_⟩
    cases i with
    | zero =>
      cases hc
      cases hx
      rw [List.head?_eq_getElem?] at hf
      exact hf
    | succ i =>
      have read := each i c x hc hx
      rw [List.getElem?_tail] at read
      have place : index + (i + 1) = index + 1 + i := by omega
      exact place ▸ read

/-- A request that is read has its changes from the list under `changes`. -/
theorem changes_of_ofData (h : ofData lines d = .ok r) :
    ∃ es ds, d = .map es ∧ Datum.field? "changes" es = some (.list ds) ∧
      changesOfData r.language 0 lines ds = .ok r.changes := by
  unfold ofData at h
  split at h
  · cases h
  · rename_i es
    dsimp only at h
    split at h
    · cases h
    · split at h
      · split at h
        · cases h
        · cases h
        · rename_i ds _ found
          obtain ⟨changes, read, h⟩ := bind_eq_ok_iff.mp h
          cases h
          refine ⟨es, ds, rfl, ?_, read⟩
          cases there : Datum.field? "changes" es with
          | none =>
            rw [there] at found
            cases found
          | some v =>
            rw [there] at found
            exact congrArg some found
        · cases h
      · cases h
  · cases h

/-! ## Changes from nodes -/

/-- The changes of a request are read from the items of the sequence that supplies them. -/
structure ReadFrom (r : Request) (node : Node) (items : List Node) : Prop where
  supplied : Supplies node items
  length : r.changes.length = items.length
  each : ∀ (i : Nat) c item, r.changes[i]? = some c → items[i]? = some item →
    ∃ d, item.value = .ok d ∧ changeOfData r.language i c.line d = .ok c

/-- What holds on the right of a relation between members may be carried over to the left. -/
theorem forall_left {α β : Type} {R : α → β → Prop} {P : α → Prop} {Q : β → Prop} {as : List α}
    {bs : List β} (h : List.Forall₂ R as bs) (right : ∀ b ∈ bs, Q b)
    (carry : ∀ a b, R a b → Q b → P a) : ∀ a ∈ as, P a := by
  induction h with
  | nil => simp
  | cons first _ ih =>
    rw [List.forall_mem_cons] at right ⊢
    exact ⟨carry _ _ first right.1, ih right.2⟩

/-- A list under a key of the value of a node comes from the last sequence under such a key. -/
theorem supplies_of_field? {es : List (Datum × Datum)} (hn : node.value = .ok (.map es))
    (hf : Datum.field? "changes" es = some (.list ds)) :
    ∃ items, Supplies node items ∧ List.Forall₂ (fun i d => i.value = .ok d) items ds := by
  obtain ⟨entries, values, flat, each, rfl⟩ := entries_of_map hn
  obtain ⟨before, after, rfl, others⟩ := Datum.last_of_field?_joinEntries hf
  have rest := List.forall₂_drop_append _ _ _ each
  obtain ⟨e, later, ⟨-, named, value⟩, follow, cut⟩ := List.forall₂_cons_right_iff.mp rest
  obtain ⟨key, n⟩ := e
  obtain ⟨tag, items, line, rfl, read⟩ := sequence_of_list value
  have parts : entries =
      entries.take before.length ++ (key, .sequence tag items line) :: later := by
    rw [← cut, List.take_append_drop]
  refine ⟨items, .last ((entriesOf_eq flat).trans parts) named ?_, read⟩
  refine forall_left follow others fun e v ⟨_, key, _⟩ other again => other ?_
  exact Except.ok.inj (Eq.trans (Eq.symm key) again)

/-- The changes of a request that is read from a text are the items of the sequence that supplies
them. A change has the line on which its item starts exactly if the item at its index in the leading
sequence starts on that line, as it does where the leading sequence is the one that supplies. -/
theorem ofText_lines {text : String} (h : ofText text = .ok r) :
    ∃ node items, nodeOf? text = .ok (some node) ∧ r.ReadFrom node items ∧
      ∀ (i : Nat) c item, r.changes[i]? = some c → items[i]? = some item →
        (c.line = some (item.line + 1) ↔
          ∃ first other, Leads node first ∧ first[i]? = some other ∧ other.line = item.line) ∧
        (Leads node items → c.line = some (item.line + 1)) := by
  unfold ofText at h
  split at h
  · cases h
  · cases h
  · cases h
  rename_i node document
  split at h
  · cases h
  · cases h
  rename_i d value
  obtain ⟨es, ds, rfl, found, read⟩ := changes_of_ofData h
  obtain ⟨items, supplied, values⟩ := supplies_of_field? value found
  obtain ⟨length, each⟩ := changesOfData_getElem? read
  have same : items.length = ds.length := values.length_eq
  have traced (i : Nat) (c : Change) (item : Node) (hc : r.changes[i]? = some c)
      (hi : items[i]? = some item) : c.line = (linesOfChanges node)[i]? ∧
        ∃ d, item.value = .ok d ∧ changeOfData r.language i c.line d = .ok c := by
    obtain ⟨inside, rfl⟩ := List.getElem?_eq_some_iff.mp hi
    have value := values.get inside (same ▸ inside)
    have made := each i c _ hc (List.getElem?_eq_getElem (same ▸ inside))
    rw [Nat.zero_add] at made
    have line := line_of_changeOfData made
    exact ⟨line, _, value, line ▸ made⟩
  refine ⟨node, items, document, ⟨supplied, length.trans same.symm, fun i c item hc hi =>
    (traced i c item hc hi).2⟩, fun i c item hc hi => ?_⟩
  rw [(traced i c item hc hi).1, linesOfChanges_getElem?]
  constructor
  · simp only [Nat.add_right_cancel_iff, eq_comm]
  · exact fun leads => ⟨items, item, leads, hi, rfl⟩

/-- Whether a node has a text as its value. -/
def hasText (s : String) (n : Node) : Bool :=
  match n.value with
  | .ok (.text t) => t == s
  | _ => false

theorem hasText_iff {n : Node} {s : String} : hasText s n = true ↔ n.value = .ok (.text s) := by
  unfold hasText
  split
  · rename_i t read
    simp [read]
  · rename_i other
    exact iff_of_false (by simp) (other s)

/-- What an entry has to do with changes: the lines it notes, if any, and whether it names them. -/
def glance (e : Node × Node) : Option (List Nat) × Bool := (linesUnder e, hasText "changes" e.1)

/-- A request whose changes are merged in from a mapping with an anchor, one of them in braces. -/
def mergedText : String :=
  "base: &b\n  changes:\n  - operation: morph\n  - \x7boperation: morph\x7d\n<<: *b\n"

/-- Both changes have the lines of their items, within the mapping that is merged in. -/
theorem ofText_lines_merged :
    ∃ r node items, ofText mergedText = .ok r ∧ nodeOf? mergedText = .ok (some node) ∧
      r.ReadFrom node items ∧ items.map (·.line + 1) = [3, 4] ∧
      ∀ (i : Nat) c item, r.changes[i]? = some c → items[i]? = some item →
        c.line = some (item.line + 1) := by
  have outcome : (ofText mergedText).toOption.isSome = true ∧
      (nodeOf? mergedText).toOption.any (·.any fun node =>
        (entriesOf node).map glance == [(some [3, 4], true), (none, false)]) = true := by
    decide +kernel
  obtain ⟨r, hr⟩ := Option.isSome_iff_exists.mp outcome.1
  obtain ⟨document, hn, found⟩ := (Option.any_eq_true _ _).mp outcome.2
  obtain ⟨node, rfl, glances⟩ := (Option.any_eq_true _ _).mp found
  obtain ⟨first, rest, entries, merged, others⟩ := List.map_eq_cons_iff.mp (beq_iff_eq.mp glances)
  obtain ⟨base, rfl, unnamed⟩ := List.map_eq_singleton_iff.mp others
  obtain ⟨noted, named⟩ := Prod.mk.inj merged
  obtain ⟨tag, tag', line, line', items, rfl, placed⟩ := linesUnder_eq_some_iff.mp noted
  have hr := toOption_eq_some_iff.mp hr
  have hn := toOption_eq_some_iff.mp hn
  obtain ⟨node', items', hn', read, lines⟩ := ofText_lines hr
  cases hn.symm.trans hn'
  have leads : Leads node items := .first (entries.trans (List.nil_append _).symm) (by simp)
  have supplies : Supplies node items := by
    refine .last (entries.trans (List.nil_append _).symm) (hasText_iff.mp named) ?_
    intro e he again
    rw [List.mem_singleton.mp he, ← hasText_iff, (Prod.mk.inj unnamed).2] at again
    cases again
  cases supplies.unique read.supplied
  exact ⟨r, node, items, hr, hn, read, placed.symm, fun i c item hc hi =>
    (lines i c item hc hi).2 leads⟩

/-- A request with two lists of changes, of which the last one counts. -/
def twoListsText : String := "changes:\n- operation: morph\nchanges:\n- operation: morph\n"

/-- The change has the line of the item that was overwritten. -/
theorem line_of_overwritten :
    ∃ r node item c, ofText twoListsText = .ok r ∧ nodeOf? twoListsText = .ok (some node) ∧
      Supplies node [item] ∧ item.line + 1 = 4 ∧ r.changes = [c] ∧ c.line = some 2 := by
  have outcome : (ofText twoListsText).toOption.any
        (fun r => r.changes.map (·.line) == [some 2]) = true ∧
      (nodeOf? twoListsText).toOption.any (·.any fun node =>
        (entriesOf node).map glance == [(some [2], true), (some [4], true)]) = true := by
    decide +kernel
  obtain ⟨r, hr, changed⟩ := (Option.any_eq_true _ _).mp outcome.1
  obtain ⟨document, hn, found⟩ := (Option.any_eq_true _ _).mp outcome.2
  obtain ⟨node, rfl, glances⟩ := (Option.any_eq_true _ _).mp found
  obtain ⟨c, changes, line⟩ := List.map_eq_singleton_iff.mp (beq_iff_eq.mp changed)
  obtain ⟨first, rest, entries, -, others⟩ := List.map_eq_cons_iff.mp (beq_iff_eq.mp glances)
  obtain ⟨last, rfl, again⟩ := List.map_eq_singleton_iff.mp others
  obtain ⟨noted, named⟩ := Prod.mk.inj again
  obtain ⟨tag, tag', _, _, items, rfl, placed⟩ := linesUnder_eq_some_iff.mp noted
  obtain ⟨item, rfl, place⟩ := List.map_eq_singleton_iff.mp placed.symm
  have parts : entriesOf node = [first] ++ (_, .sequence tag' [item] _) :: [] := entries
  exact ⟨r, node, item, c, toOption_eq_some_iff.mp hr, toOption_eq_some_iff.mp hn,
    .last parts (hasText_iff.mp named) (by simp), place, changes, line⟩

end Request
end Neogrammar
