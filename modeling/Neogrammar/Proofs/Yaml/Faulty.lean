import Neogrammar.Proofs.Yaml.Joined
import Neogrammar.Yaml.Read

/-!
# What spoils a text

A text that is no YAML is refused for its notation. Whatever else is wrong with a text stands in it
as a number that is too large for the notation, or as a scalar that is written as the value of a
kind and is none.
-/
namespace Neogrammar.Yaml

/-! ## Nodes within nodes -/

/-- A node is a part of another one. -/
inductive Node.Within : Node → Node → Prop
  | self (n : Node) : n.Within n
  | item {n i : Node} {tag : Tag} {items : List Node} {line : Nat} (member : i ∈ items)
      (inside : n.Within i) : n.Within (.sequence tag items line)
  | key {n : Node} {e : Node × Node} {tag : Tag} {entries : List (Node × Node)} {line : Nat}
      (member : e ∈ entries) (inside : n.Within e.1) : n.Within (.mapping tag entries line)
  | value {n : Node} {e : Node × Node} {tag : Tag} {entries : List (Node × Node)} {line : Nat}
      (member : e ∈ entries) (inside : n.Within e.2) : n.Within (.mapping tag entries line)

theorem Node.Within.trans {a b c : Node} (inner : a.Within b) (outer : b.Within c) :
    a.Within c := by
  induction outer with
  | self => exact inner
  | item member _ ih => exact .item member ih
  | key member _ ih => exact .key member ih
  | value member _ ih => exact .value member ih

/-- A scalar, or a mapping that stands for one, whose text is no value of its kind. -/
def Node.Faulty (n : Node) (f : Fault) : Prop := scalarOf n = .error f

/-- Bad notation, or a scalar of a node that is faulty. -/
def Node.Blames (n : Node) (f : Fault) : Prop :=
  IsMalformed f ∨ ∃ leaf : Node, leaf.Within n ∧ leaf.Faulty f

theorem Node.Blames.malformed {n : Node} (line : Nat) : n.Blames (.malformed line) :=
  .inl ⟨line, rfl⟩

theorem Node.Blames.of_within {m n : Node} {f : Fault} (h : m.Blames f) (within : m.Within n) :
    n.Blames f :=
  h.imp id fun ⟨leaf, inside, faulty⟩ => ⟨leaf, inside.trans within, faulty⟩

/-! ## Entries of mappings -/

/-- An entry from within a node; its key may be taken as a text instead of a sign. -/
structure Node.Holds (n : Node) (e : Node × Node) : Prop where
  key : e.1.Within n ∨ e.1.kind = .text
  value : e.2.Within n

theorem Node.Holds.of_within {m n : Node} {e : Node × Node} (h : m.Holds e)
    (within : m.Within n) : n.Holds e :=
  ⟨h.key.imp (·.trans within) id, h.value.trans within⟩

theorem plainKey_eq (key : Node) : plainKey key = key ∨ (plainKey key).kind = .text := by
  unfold plainKey
  split
  · exact .inr rfl
  · exact .inr rfl
  · exact .inl rfl

/-- Entries that all are from within a node. -/
abbrev AllHeld (n : Node) (entries : List (Node × Node)) : Prop := ∀ e ∈ entries, n.Holds e

theorem AllHeld.append {n : Node} {a b : List (Node × Node)} (ha : AllHeld n a)
    (hb : AllHeld n b) : AllHeld n (a ++ b) := fun e he =>
  (List.mem_append.mp he).elim (ha e) (hb e)

mutual

theorem meets_flatten (n : Node) : Meets (AllHeld n) IsMalformed (flatten n) := by
  cases n with
  | mapping tag entries line =>
    rw [flatten]
    refine (meets_flattenEntries (.mapping tag entries line) entries fun e he =>
      ⟨.key he (.self _), .value he (.self _)⟩).bind fun ⟨merged, own⟩ held => ?_
    exact held.1.append held.2
  | scalar tag text line => exact ⟨_, rfl⟩
  | sequence tag items line => exact ⟨_, rfl⟩

theorem meets_flattenEntries (n : Node) (entries : List (Node × Node))
    (inside : ∀ e ∈ entries, e.1.Within n ∧ e.2.Within n) :
    Meets (fun r => AllHeld n r.1 ∧ AllHeld n r.2) IsMalformed (flattenEntries entries) := by
  cases entries with
  | nil => exact ⟨nofun, nofun⟩
  | cons e rest =>
    obtain ⟨key, value⟩ := e
    obtain ⟨hk, hv⟩ := inside _ List.mem_cons_self
    have others := meets_flattenEntries n rest fun e he => inside e (List.mem_cons_of_mem _ he)
    rw [flattenEntries]
    refine .ite (fun _ => ?_) fun _ => ?_
    · refine (meets_mergedEntries value).bind fun first held => ?_
      refine others.bind fun ⟨merged, own⟩ after => ⟨AllHeld.append (fun e he => ?_) after.1, after.2⟩
      exact (held e he).of_within hv
    · refine others.bind fun ⟨merged, own⟩ after => ⟨after.1, ?_⟩
      refine List.forall_mem_cons.mpr ⟨⟨?_, hv⟩, after.2⟩
      exact (plainKey_eq key).imp (fun same => by rw [same]; exact hk) id

theorem meets_mergedEntries (n : Node) : Meets (AllHeld n) IsMalformed (mergedEntries n) := by
  cases n with
  | mapping tag entries line =>
    rw [mergedEntries]
    refine (meets_flattenEntries (.mapping tag entries line) entries fun e he =>
      ⟨.key he (.self _), .value he (.self _)⟩).bind fun ⟨merged, own⟩ held => ?_
    exact held.1.append held.2
  | scalar tag text line => exact ⟨_, rfl⟩
  | sequence tag items line =>
    rw [mergedEntries]
    exact meets_flattenAll (.sequence tag items line) items fun i hi => .item hi (.self _)

theorem meets_flattenAll (n : Node) (items : List Node) (inside : ∀ i ∈ items, i.Within n) :
    Meets (AllHeld n) IsMalformed (flattenAll items) := by
  cases items with
  | nil => exact nofun
  | cons item rest =>
    rw [flattenAll]
    refine (meets_flatten item).bind fun first held => ?_
    refine (meets_flattenAll n rest fun i hi => inside i (List.mem_cons_of_mem _ hi)).bind
      fun more after => ?_
    exact AllHeld.append after fun e he => (held e he).of_within (inside item List.mem_cons_self)

end

/-! ## Values -/

variable {P : Fault → Prop} {α β : Type}

/-- A fault of a kind, at any depth. -/
abbrev Deep.Blames (P : Fault → Prop) (x : Deep α) : Prop := FailsOnly (fun e => P e.2) x

theorem meets_atDepth {R : α → Prop} {x : Except Fault α} (depth : Nat) (hx : Meets R P x) :
    Meets R (fun e => P e.2) (atDepth depth x) := by
  cases x with
  | ok a => exact hx
  | error f => exact hx

theorem blames_both {x : Deep α} {y : Deep β} (hx : Deep.Blames P x) (hy : Deep.Blames P y) :
    Deep.Blames P (both x y) := by
  cases x with
  | ok a =>
    cases y with
    | ok b => exact .ok _
    | error f => exact .error (hy f rfl)
  | error e =>
    cases y with
    | ok b => exact .error (hx e rfl)
    | error f =>
      refine .error ?_
      split
      · exact hy f rfl
      · exact hx e rfl

theorem blames_allValues {value : Node → Deep Datum} {items : List Node}
    (h : ∀ i ∈ items, Deep.Blames P (value i)) : Deep.Blames P (allValues value items) := by
  induction items with
  | nil => exact .ok _
  | cons i rest ih =>
    rw [allValues]
    refine (blames_both (h i List.mem_cons_self) (ih fun i hi => ?_)).map
    exact h i (List.mem_cons_of_mem _ hi)

theorem blames_keyValue {value : Node → Deep Datum} {depth : Nat} {key : Node}
    (malformed : ∀ line, P (.malformed line)) (h : Deep.Blames P (value key)) :
    Deep.Blames P (keyValue value depth key) := by
  unfold keyValue
  split
  · exact .error (malformed _)
  · exact h

theorem blames_entryValues {value : Node → Deep Datum} {depth : Nat}
    {entries : List (Node × Node)} (malformed : ∀ line, P (.malformed line))
    (h : ∀ e ∈ entries, Deep.Blames P (value e.1) ∧ Deep.Blames P (value e.2)) :
    Deep.Blames P (entryValues value depth entries) := by
  induction entries with
  | nil => exact .ok _
  | cons e rest ih =>
    obtain ⟨key, v⟩ := e
    obtain ⟨hk, hv⟩ := h _ List.mem_cons_self
    rw [entryValues]
    refine (blames_both (blames_both (blames_keyValue malformed hk) hv) (ih fun e he => ?_)).map
    exact h e (List.mem_cons_of_mem _ he)

mutual

theorem malformed_scalarText (n : Node) : FailsOnly IsMalformed (scalarText n) := by
  cases n with
  | scalar tag text line => exact .ok _
  | sequence tag items line => exact .error ⟨_, rfl⟩
  | mapping tag entries line =>
    rw [scalarText]
    exact malformed_defaultText line entries

theorem malformed_defaultText (line : Nat) (entries : List (Node × Node)) :
    FailsOnly IsMalformed (defaultText line entries) := by
  cases entries with
  | nil => exact .error ⟨_, rfl⟩
  | cons e rest =>
    rw [defaultText]
    split
    · exact malformed_scalarText e.2
    · exact malformed_defaultText line rest

end

/-- A text has a value, if it is well-formed. -/
theorem malformed_text {n : Node} (h : n.kind = .text) (fuel depth : Nat) :
    Deep.Blames IsMalformed (nodeValue fuel depth n) := by
  cases fuel with
  | zero => exact .error ⟨_, rfl⟩
  | succ fuel =>
    unfold nodeValue
    rw [h]
    refine Meets.failsOnly (R := fun _ => True) (meets_atDepth _ ?_)
    refine Meets.of_failsOnly ((malformed_scalarText n).bind fun text _ => ?_) fun _ _ => trivial
    rw [h]
    exact .ok _

/-- A node has a value, or it is malformed, or one of its scalars is faulty. -/
theorem blames_nodeValue (fuel depth : Nat) (n : Node) :
    Deep.Blames n.Blames (nodeValue fuel depth n) := by
  induction fuel generalizing depth n with
  | zero => exact .error (.malformed _)
  | succ fuel ih =>
    have inner {m : Node} (within : m.Within n) :
        Deep.Blames n.Blames (nodeValue fuel (depth + 1) m) :=
      (ih _ m).mono fun _ blame => blame.of_within within
    unfold nodeValue
    split
    · split
      · exact (blames_allValues fun i hi => inner (.item hi (.self _))).map
      · exact .error (.malformed _)
    · have entries : Meets (AllHeld n) (fun e => n.Blames e.2) (atDepth (depth + 1) (flatten n)) :=
        meets_atDepth _ ((meets_flatten n).mono (fun _ held => held) fun _ bad => .inl bad)
      refine entries.failsOnly.bind fun es hes => ?_
      have held : AllHeld n es := entries.of_eq_ok hes
      refine FailsOnly.bind (blames_entryValues Node.Blames.malformed fun e he => ?_) fun _ _ => .ok _
      refine ⟨?_, inner (held e he).value⟩
      -- a key that was made a text is not a part of the node, but it has no fault of its own
      rcases (held e he).key with within | text
      · exact inner within
      · exact (malformed_text text _ _).mono fun _ bad => .inl bad
    · exact .error (.malformed _)
    · exact .error (.malformed _)
    · exact .error (.malformed _)
    · refine Meets.failsOnly (R := fun _ => True) (meets_atDepth _ ?_)
      exact Meets.of_failsOnly (fun f bad => .inr ⟨n, .self n, bad⟩) fun _ _ => trivial

theorem Node.blames_value (n : Node) : FailsOnly n.Blames n.value := by
  have blames := blames_nodeValue (depthOf n) 0 n
  unfold Node.value
  split
  · exact .ok _
  · rename_i bad
    exact .error (blames _ bad)

/-! ## Texts -/

/-- What else than notation a text of allowed characters fails for: a number of the notation that
is too large, or a scalar that is faulty. -/
inductive Escapes (text : String) : Fault → Prop
  | number {f : Fault} (there : Spoils text.toList f) : Escapes text f
  | scalar {n leaf : Node} {f : Fault} (read : nodeOf? text = .ok (some n))
      (within : leaf.Within n) (faulty : leaf.Faulty f) : Escapes text f

/-- No text with a character that is not allowed is read. -/
theorem nodeOf?_unprintable {text : String} (h : text.toList.all isAllowed = false) :
    nodeOf? text = .error .unprintable := by
  rw [nodeOf?, h]
  rfl

theorem nodeOf?_escapes {text : String} (h : text.toList.all isAllowed = true) :
    FailsOnly (fun f => IsMalformed f ∨ Escapes text f) (nodeOf? text) := by
  obtain ⟨closed, spoiled⟩ := Tokens.closed_ofText text.toList
  rw [nodeOf?, if_pos h]
  refine (Node.failsOnly_ofTokens? closed).mono fun f fault => ?_
  rcases fault with bad | there
  · exact .inl bad
  · exact (spoiled f there).imp id .number

theorem value_escapes {text : String} {n : Node} (h : nodeOf? text = .ok (some n)) :
    FailsOnly (fun f => IsMalformed f ∨ Escapes text f) n.value :=
  n.blames_value.mono fun _ blame => blame.imp id fun ⟨_, within, faulty⟩ => .scalar h within faulty

theorem read_unprintable {text : String} (h : text.toList.all isAllowed = false) :
    read text = .error .unprintable := by
  rw [read, nodeOf?_unprintable h]
  rfl

/-- A text of allowed characters has a value, or it is bad notation, or something else in it is
wrong that stands there. -/
theorem read_escapes {text : String} (h : text.toList.all isAllowed = true) :
    FailsOnly (fun f => IsMalformed f ∨ Escapes text f) (read text) := by
  refine (nodeOf?_escapes h).bind fun n hn => ?_
  cases n with
  | none => exact .ok _
  | some n => exact value_escapes hn

end Neogrammar.Yaml
