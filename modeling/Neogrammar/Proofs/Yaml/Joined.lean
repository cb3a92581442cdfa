import Neogrammar.Proofs.Yaml.Taken
import Neogrammar.Yaml.Node

/-!
# Joining tokens to its end

Every reader of nodes takes a token or hands over to one that does, and none takes the end of the
text. With the fuel that they are given they come to a node, to bad notation, or to the fault that
ends the tokens.
-/
namespace Neogrammar.Yaml

namespace Joiner

variable {α : Type} {j k : Joiner} {g : Option Fault} {m n fuel : Nat} {t : Token}

/-! ## What is left of the tokens -/

/-- Fewer than `n` tokens are left, up to the end of the text or to a fault. -/
structure Has (g : Option Fault) (n : Nat) (j : Joiner) : Prop where
  fault : j.left.fault = g
  closed : j.left.Closed
  few : j.left.tokens.length < n

/-- Bad notation, or the fault that ends the tokens. -/
def AtFault (g : Option Fault) (f : Fault) : Prop := IsMalformed f ∨ g = some f

theorem AtFault.malformed (line : Nat) : AtFault g (.malformed line) := .inl ⟨line, rfl⟩

/-- A reader leaves fewer than `n` tokens, or fails for the notation or the tokens. -/
abbrev Leaves (g : Option Fault) (n : Nat) (x : Except Fault (α × Joiner)) : Prop :=
  Meets (fun r => r.2.Has g n) (AtFault g) x

theorem Has.mono (h : j.Has g m) (le : m ≤ n) : j.Has g n :=
  ⟨h.fault, h.closed, Nat.lt_of_lt_of_le h.few le⟩

theorem Has.of_left (h : j.Has g n) (same : k.left = j.left) : k.Has g n :=
  ⟨same ▸ h.fault, same ▸ h.closed, same ▸ h.few⟩

theorem Leaves.mono {x : Except Fault (α × Joiner)} (hx : Leaves g m x) (le : m ≤ n) :
    Leaves g n x := Meets.mono hx (fun _ after => after.mono le) fun _ fault => fault

/-- Tokens are all taken only before a fault. -/
theorem Has.out (h : j.Has g n) (none : j.left.tokens = []) :
    AtFault g (j.left.fault.getD .unprintable) := by
  cases hf : j.left.fault with
  | none =>
    have ends := h.closed hf
    rw [none] at ends
    cases ends
  | some f => exact .inr (h.fault ▸ hf)

/-- Where the fuel is out, so are the tokens. -/
theorem Has.out_of_fuel (h : j.Has g n) (enough : 4 * n ≤ 4) :
    AtFault g (j.left.fault.getD .unprintable) :=
  h.out (List.length_eq_zero_iff.mp (by have := h.few; omega))

theorem meets_peek (h : j.Has g n) :
    Meets (fun t => j.left.tokens.head? = some t) (AtFault g) j.peek := by
  unfold peek
  split
  · rename_i next
    show j.left.tokens.head? = _
    rw [next]
    rfl
  · rename_i none
    exact h.out none

/-- Any token but the end of the text may be taken. -/
theorem Has.pop (h : j.Has g n) (next : j.left.tokens.head? = some t) (going : t.kind ≠ .streamEnd) :
    j.pop.Has g (n - 1) := by
  obtain ⟨rest, hr⟩ := List.head?_eq_some_iff.mp next
  have tokens : j.pop.left.tokens = rest := by
    show j.left.tokens.drop 1 = rest
    rw [hr]
    rfl
  have few := h.few
  rw [hr, List.length_cons] at few
  refine ⟨h.fault, fun none => ?_, by rw [tokens]; omega⟩
  have ends := h.closed none
  rw [hr] at ends
  rw [tokens]
  cases rest with
  | nil => exact absurd (by simpa using ends) going
  | cons u rest => simpa using ends

theorem Has.of_bind {anchor : Option String} {node : Node} (h : j.Has g n) :
    Meets (fun k => k.Has g n ∧ k.left = j.left) (AtFault g) (j.bind anchor node) := by
  unfold Joiner.bind
  split
  · exact ⟨h, rfl⟩
  · exact .ite (fun _ => AtFault.malformed _) fun _ => ⟨h.of_left rfl, rfl⟩

theorem Has.rebind (h : j.Has g n) (anchor : Option String) (node : Node) :
    (j.rebind anchor node).Has g n := by
  unfold Joiner.rebind
  split
  · exact h
  · exact h.of_left rfl

/-! ## Anchors and tags -/

theorem readAnchor?_going {name : String} (h : readAnchor? t = some name) :
    t.kind ≠ .streamEnd := by
  unfold readAnchor? at h
  intro ends
  rw [ends] at h
  cases h

theorem readTag?_going {tag : Token × Option String × String} (h : readTag? t = some tag) :
    t.kind ≠ .streamEnd := by
  unfold readTag? at h
  intro ends
  rw [ends] at h
  cases h

/-- An anchor or a tag is a token. -/
theorem meets_readProperties (h : j.Has g n) :
    Meets (fun r => r.2.Has g n ∧ (r.1.anchor.isSome ∨ r.1.tag.isSome → r.2.Has g (n - 1)))
      (AtFault g) j.readProperties := by
  unfold readProperties
  refine (meets_peek h).bind fun first next => ?_
  split
  · rename_i anchor
    have one := h.pop next (readAnchor?_going anchor)
    refine (meets_peek one).bind fun second next => ?_
    split
    · rename_i tag
      have two := (one.pop next (readTag?_going tag)).mono (Nat.sub_le _ 1)
      exact ⟨two.mono (Nat.sub_le n 1), fun _ => two⟩
    · exact ⟨one.mono (Nat.sub_le n 1), fun _ => one⟩
  · rename_i tag
    have one := h.pop next (readTag?_going tag)
    refine (meets_peek one).bind fun second next => ?_
    split
    · rename_i anchor
      have two := (one.pop next (readAnchor?_going anchor)).mono (Nat.sub_le _ 1)
      exact ⟨two.mono (Nat.sub_le n 1), fun _ => two⟩
    · exact ⟨one.mono (Nat.sub_le n 1), fun _ => one⟩
  · exact ⟨h, by simp⟩

theorem meets_tagName? (j : Joiner) (tag : Option (Token × Option String × String)) :
    Meets (fun name => name.isSome = tag.isSome) (AtFault g) (j.tagName? tag) := by
  unfold tagName?
  split
  · rfl
  · rfl
  · split
    · rfl
    · exact AtFault.malformed _

/-! ## Nodes -/

/-- The content of a node is read between the two times that its anchor is given to it. -/
theorem leaves_bound {x : α × Joiner → Node} {anchor : Option String} {empty : Node}
    {read : Joiner → Except Fault (α × Joiner)} (h : j.Has g m)
    (hr : ∀ k : Joiner, k.left = j.left → Leaves g n (read k)) :
    Leaves g n (do
      let k ← j.bind anchor empty
      let r ← read k
      pure (x r, r.2.rebind anchor (x r))) :=
  (h.of_bind).bind fun k ⟨_, same⟩ => (hr k same).bind fun _ after => Has.rebind after _ _

/-- What the readers of nodes leave with some fuel.

A reader has four steps of fuel for every token. One that may hand over to another before it takes
a token has a step more than that one: what may be left out or stands in brackets is read as a node,
and a node may be a list that is not indented, which starts with its first dash. -/
structure Reading (g : Option Fault) (fuel : Nat) : Prop where
  node {n : Nat} {j : Joiner} (block inMapping : Bool) (h : j.Has g n)
    (enough : 4 * n + 1 ≤ fuel + 4) :
    Leaves g (if inMapping then n else n - 1) (readNode block inMapping fuel j)
  optional {n : Nat} {j : Joiner} (block inMapping : Bool) (ends : List TokenKind) (line : Nat)
    (h : j.Has g n) (enough : 4 * n + 2 ≤ fuel + 4) :
    Leaves g n (readOptional block inMapping ends line fuel j)
  blockItems {n : Nat} {j : Joiner} (h : j.Has g n) (enough : 4 * n ≤ fuel + 4) :
    Leaves g n (readBlockItems fuel j)
  looseEntries {n : Nat} {j : Joiner} (h : j.Has g n) (enough : 4 * n ≤ fuel + 4) :
    Leaves g n (readLooseEntries fuel j)
  blockValue {n : Nat} {j : Joiner} (h : j.Has g n) (enough : 4 * n ≤ fuel + 4) :
    Leaves g n (readBlockValue fuel j)
  blockEntries {n : Nat} {j : Joiner} (h : j.Has g n) (enough : 4 * n ≤ fuel + 4) :
    Leaves g n (readBlockEntries fuel j)
  flowValue {n : Nat} {j : Joiner} (close : TokenKind) (h : j.Has g n)
    (enough : 4 * n ≤ fuel + 4) : Leaves g n (readFlowValue close fuel j)
  flowItems {n : Nat} {j : Joiner} (first : Bool) (h : j.Has g n)
    (enough : 4 * n + 2 ≤ fuel + 4) : Leaves g n (readFlowItems first fuel j)
  flowEntries {n : Nat} {j : Joiner} (first : Bool) (h : j.Has g n)
    (enough : 4 * n + 2 ≤ fuel + 4) : Leaves g n (readFlowEntries first fuel j)

theorem reading_zero (g : Option Fault) : Reading g 0 where
  node _ _ h enough := h.out_of_fuel (by omega)
  optional _ _ _ _ h enough := h.out_of_fuel (by omega)
  blockItems h enough := h.out_of_fuel enough
  looseEntries h enough := h.out_of_fuel enough
  blockValue h enough := h.out_of_fuel enough
  blockEntries h enough := h.out_of_fuel enough
  flowValue _ h enough := h.out_of_fuel enough
  flowItems _ h enough := h.out_of_fuel (by omega)
  flowEntries _ h enough := h.out_of_fuel (by omega)

namespace Reading

variable (ih : Reading g fuel)
include ih

theorem succ_optional (block inMapping : Bool) (ends : List TokenKind) (line : Nat)
    (h : j.Has g n) (enough : 4 * n + 2 ≤ fuel + 1 + 4) :
    Leaves g n (readOptional block inMapping ends line (fuel + 1) j) := by
  unfold readOptional
  refine (meets_peek h).bind fun t _ => .ite (fun _ => h) fun _ => ?_
  refine (ih.node block inMapping h (by omega)).mono ?_
  split <;> omega

theorem succ_blockItems (h : j.Has g n) (enough : 4 * n ≤ fuel + 1 + 4) :
    Leaves g n (readBlockItems (fuel + 1) j) := by
  unfold readBlockItems
  refine (meets_peek h).bind fun t next => ?_
  split
  · rename_i kind
    have one := h.pop next (by simp [kind])
    refine (ih.optional _ _ _ _ one (by omega)).bind fun ⟨item, k⟩ after => ?_
    exact (ih.blockItems after (by omega)).bind fun _ after => Has.mono after (Nat.sub_le n 1)
  · rename_i kind
    exact (h.pop next (by simp [kind])).mono (Nat.sub_le n 1)
  · exact AtFault.malformed _

theorem succ_looseEntries (h : j.Has g n) (enough : 4 * n ≤ fuel + 1 + 4) :
    Leaves g n (readLooseEntries (fuel + 1) j) := by
  unfold readLooseEntries
  refine (meets_peek h).bind fun t next => ?_
  split
  · rename_i kind
    have one := h.pop next (by simp [kind])
    refine (ih.optional _ _ _ _ one (by omega)).bind fun ⟨item, k⟩ after => ?_
    exact (ih.looseEntries after (by omega)).bind fun _ after => Has.mono after (Nat.sub_le n 1)
  · exact h

theorem succ_blockValue (h : j.Has g n) (enough : 4 * n ≤ fuel + 1 + 4) :
    Leaves g n (readBlockValue (fuel + 1) j) := by
  unfold readBlockValue
  refine (meets_peek h).bind fun t next => ?_
  split
  · rename_i kind
    have one := h.pop next (by simp [kind])
    exact (ih.optional _ _ _ _ one (by omega)).mono (Nat.sub_le n 1)
  · exact h

theorem succ_blockEntries (h : j.Has g n) (enough : 4 * n ≤ fuel + 1 + 4) :
    Leaves g n (readBlockEntries (fuel + 1) j) := by
  unfold readBlockEntries
  refine (meets_peek h).bind fun t next => ?_
  split
  · rename_i kind
    have one := h.pop next (by simp [kind])
    refine (ih.optional _ _ _ _ one (by omega)).bind fun ⟨key, k⟩ after => ?_
    refine (ih.blockValue after (by omega)).bind fun ⟨value, k⟩ after => ?_
    exact (ih.blockEntries after (by omega)).bind fun _ after => Has.mono after (Nat.sub_le n 1)
  · rename_i kind
    exact (h.pop next (by simp [kind])).mono (Nat.sub_le n 1)
  · exact AtFault.malformed _

theorem succ_flowValue (close : TokenKind) (h : j.Has g n) (enough : 4 * n ≤ fuel + 1 + 4) :
    Leaves g n (readFlowValue close (fuel + 1) j) := by
  unfold readFlowValue
  refine (meets_peek h).bind fun t next => ?_
  split
  · rename_i kind
    have one := h.pop next (by simp [kind])
    exact (ih.optional _ _ _ _ one (by omega)).mono (Nat.sub_le n 1)
  · exact h

/-- A node within brackets takes a token. -/
theorem flowNode (h : j.Has g n) (enough : 4 * n + 1 ≤ fuel + 4) :
    Leaves g (n - 1) (readNode false false fuel j) := ih.node false false h enough

omit ih in
/-- The place behind the comma, or before the first item, which needs none. -/
theorem behind_comma {first : Bool} (h : j.Has g n) (next : j.left.tokens.head? = some t)
    (comma : ¬(!first && t.kind != .flowEntry) = true) :
    ∃ m ≤ n, Joiner.Has g m (if first then j else j.pop) := by
  cases first with
  | true => exact ⟨n, le_rfl, h⟩
  | false => exact ⟨n - 1, Nat.sub_le n 1, h.pop next (by simp_all)⟩

theorem succ_flowItems (first : Bool) (h : j.Has g n) (enough : 4 * n + 2 ≤ fuel + 1 + 4) :
    Leaves g n (readFlowItems first (fuel + 1) j) := by
  unfold readFlowItems
  refine (meets_peek h).bind fun t next => .ite (fun closing => ?_) fun _ => ?_
  · exact (h.pop next (by simp [eq_of_beq closing])).mono (Nat.sub_le n 1)
  refine .ite (fun _ => AtFault.malformed _) fun comma => ?_
  obtain ⟨m, le, behind⟩ := behind_comma h next comma
  dsimp only
  generalize (if first then j else j.pop) = k at behind ⊢
  refine (meets_peek behind).bind fun t next => ?_
  split
  · rename_i kind
    exact (behind.pop next (by simp [kind])).mono (by omega)
  · rename_i kind
    have one := behind.pop next (by simp [kind])
    refine (ih.optional _ _ _ _ one (by omega)).bind fun ⟨key, k⟩ after => ?_
    refine (ih.flowValue _ after (by omega)).bind fun ⟨value, k⟩ after => ?_
    exact (ih.flowItems _ after (by omega)).bind fun _ after => Has.mono after (by omega)
  · refine (ih.flowNode behind (by omega)).bind fun ⟨item, k⟩ after => ?_
    exact (ih.flowItems _ after (by omega)).bind fun _ after => Has.mono after (by omega)

theorem succ_flowEntries (first : Bool) (h : j.Has g n) (enough : 4 * n + 2 ≤ fuel + 1 + 4) :
    Leaves g n (readFlowEntries first (fuel + 1) j) := by
  unfold readFlowEntries
  refine (meets_peek h).bind fun t next => .ite (fun closing => ?_) fun _ => ?_
  · exact (h.pop next (by simp [eq_of_beq closing])).mono (Nat.sub_le n 1)
  refine .ite (fun _ => AtFault.malformed _) fun comma => ?_
  obtain ⟨m, le, behind⟩ := behind_comma h next comma
  dsimp only
  generalize (if first then j else j.pop) = k at behind ⊢
  refine (meets_peek behind).bind fun t next => ?_
  split
  · rename_i kind
    exact (behind.pop next (by simp [kind])).mono (by omega)
  · rename_i kind
    have one := behind.pop next (by simp [kind])
    refine (ih.optional _ _ _ _ one (by omega)).bind fun ⟨key, k⟩ after => ?_
    refine (ih.flowValue _ after (by omega)).bind fun ⟨value, k⟩ after => ?_
    exact (ih.flowEntries _ after (by omega)).bind fun _ after => Has.mono after (by omega)
  · refine (ih.flowNode behind (by omega)).bind fun ⟨key, k⟩ after => ?_
    refine (meets_peek after).bind fun t _ => ?_
    exact (ih.flowEntries _ after (by omega)).bind fun _ after => Has.mono after (by omega)

theorem succ_node (block inMapping : Bool) (h : j.Has g n)
    (enough : 4 * n + 1 ≤ fuel + 1 + 4) :
    Leaves g (if inMapping then n else n - 1) (readNode block inMapping (fuel + 1) j) := by
  generalize hm : (if inMapping then n else n - 1) = m
  have least : n - 1 ≤ m := by
    rw [← hm]
    split <;> omega
  unfold readNode
  refine (meets_peek h).bind fun first next => ?_
  split
  · rename_i kind
    split
    · exact (h.pop next (by simp [kind])).mono least
    · exact AtFault.malformed _
  refine (meets_readProperties h).bind fun ⟨props, k⟩ ⟨all, less⟩ => ?_
  refine (meets_tagName? k props.tag).bind fun tag tagged => ?_
  refine (meets_peek all).bind fun t next => ?_
  have taken (k' : Joiner) (same : k'.left = k.left) (going : t.kind ≠ .streamEnd) :
      k'.pop.Has g (n - 1) := (all.of_left same).pop (same ▸ next) going
  dsimp only
  split
  · -- a list that is not indented has no token before its first dash
    have unindented : n ≤ m := by simpa using Nat.le_of_eq hm
    exact leaves_bound all fun k' same =>
      (ih.looseEntries (all.of_left same) (by omega)).mono unindented
  · rename_i kind
    have one : k.pop.Has g m := (taken k rfl (by simp [kind])).mono least
    exact one.of_bind.bind fun _ after => after.1
  · rename_i kind
    exact leaves_bound all fun k' same =>
      (ih.flowItems true (taken k' same (by simp [kind])) (by omega)).mono least
  · rename_i kind
    exact leaves_bound all fun k' same =>
      (ih.flowEntries true (taken k' same (by simp [kind])) (by omega)).mono least
  · rename_i kind
    exact leaves_bound all fun k' same =>
      (ih.blockItems (taken k' same (by simp [kind])) (by omega)).mono least
  · rename_i kind
    exact leaves_bound all fun k' same =>
      (ih.blockEntries (taken k' same (by simp [kind])) (by omega)).mono least
  · -- an empty node has taken its anchor or its tag
    refine .ite (fun some => ?_) fun _ => AtFault.malformed _
    have one : k.Has g m := (less (by simpa [tagged] using some)).mono least
    exact one.of_bind.bind fun _ after => after.1

end Reading

/-- Every reader of nodes has enough fuel. -/
theorem reading (g : Option Fault) (fuel : Nat) : Reading g fuel := by
  induction fuel with
  | zero => exact reading_zero g
  | succ fuel ih =>
    exact {
      node := ih.succ_node
      optional := ih.succ_optional
      blockItems := ih.succ_blockItems
      looseEntries := ih.succ_looseEntries
      blockValue := ih.succ_blockValue
      blockEntries := ih.succ_blockEntries
      flowValue := ih.succ_flowValue
      flowItems := ih.succ_flowItems
      flowEntries := ih.succ_flowEntries }

/-! ## Documents -/

theorem meets_readDirectives (h : j.Has g n) (fuel : Nat) (versioned : Bool)
    (handles : List (String × String)) :
    Meets (Has g n) (AtFault g) (readDirectives fuel versioned handles j) := by
  induction fuel generalizing j n versioned handles with
  | zero => exact h.of_left rfl
  | succ fuel ih =>
    unfold readDirectives
    refine (meets_peek h).bind fun t next => ?_
    have le : n - 1 ≤ n := Nat.sub_le n 1
    split
    · rename_i kind
      refine .ite (fun _ => AtFault.malformed _) fun _ => ?_
      exact ih ((h.pop next (by simp [kind])).mono le) _ _
    · rename_i kind
      refine .ite (fun _ => AtFault.malformed _) fun _ => ?_
      exact ih ((h.pop next (by simp [kind])).mono le) _ _
    · rename_i kind
      exact ih ((h.pop next (by simp [kind])).mono le) _ _
    · exact h.of_left rfl

theorem meets_readStart (h : j.Has g n) : Meets (Has g n) (AtFault g) j.readStart := by
  refine (meets_readDirectives h _ _ _).bind fun k after => ?_
  refine (meets_peek after).bind fun t next => .ite (fun start => ?_) fun _ => AtFault.malformed _
  exact (after.pop next (by simp [eq_of_beq start])).mono (Nat.sub_le n 1)

/-- The fuel for what is left is enough for a node. -/
theorem leaves_node (h : j.Has g n) : Leaves g n (readNode true false j.fuel j) := by
  have tight : j.Has g (j.left.tokens.length + 1) := ⟨h.fault, h.closed, Nat.lt_succ_self _⟩
  have few := h.few
  refine ((reading g j.fuel).node true false tight (by unfold Joiner.fuel; omega)).mono ?_
  show j.left.tokens.length + 1 - 1 ≤ n
  omega

theorem leaves_readContent (h : j.Has g n) : Leaves g n j.readContent := by
  refine (meets_peek h).bind fun t _ => .ite (fun _ => ?_) fun _ => leaves_node (h.of_left rfl)
  refine (meets_readStart h).bind fun k after => ?_
  exact (meets_peek after).bind fun t _ => .ite (fun _ => after) fun _ => leaves_node after

theorem meets_skipEnds (h : j.Has g n) (fuel : Nat) :
    Meets (Has g n) (AtFault g) (skipEnds fuel j) := by
  induction fuel generalizing j n with
  | zero => exact h
  | succ fuel ih =>
    unfold skipEnds
    refine (meets_peek h).bind fun t next => .ite (fun ending => ?_) fun _ => h
    exact ih ((h.pop next (by simp [eq_of_beq ending])).mono (Nat.sub_le n 1))

end Joiner

/-- The tokens of a text that are closed give a node or none, or fail for their notation or with
the fault that ends them. -/
theorem Node.failsOnly_ofTokens? {tokens : Tokens} (closed : tokens.Closed) :
    FailsOnly (Joiner.AtFault tokens.fault) (Node.ofTokens? tokens) := by
  have start : Joiner.Has tokens.fault (tokens.tokens.length + 1) ⟨tokens, [], []⟩ :=
    ⟨rfl, closed, Nat.lt_succ_self _⟩
  refine Meets.failsOnly (R := fun _ => True) ?_
  refine (Joiner.meets_peek start).bind fun t _ => .ite (fun _ => trivial) fun _ => ?_
  refine (Joiner.leaves_readContent start).bind fun ⟨node, j⟩ after => ?_
  refine (Joiner.meets_skipEnds after _).bind fun j after => ?_
  refine (Joiner.meets_peek after).bind fun t _ => .ite (fun _ => trivial) fun _ => ?_
  exact (Joiner.meets_readStart after).bind fun _ _ => Joiner.AtFault.malformed _

end Neogrammar.Yaml
