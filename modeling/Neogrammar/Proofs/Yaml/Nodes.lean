import Mathlib.Data.List.Basic
import Neogrammar.Proofs.Datum.Plain
import Neogrammar.Proofs.Outcome
import Neogrammar.Yaml.Read
import Neogrammar.Yaml.Write

/-!
# Tokens of data

Plain data are written as tokens that join to a node whose value is these data, whatever tokens come
after them. Only a loose sequence needs a token after it that does not go on with it.
-/
namespace Neogrammar.Yaml

mutual

/-- The tokens of a value. The items of a loose sequence are not closed by a token of their own. -/
def valueTokens (loose : Bool) : Datum → List TokenKind
  | .list [] => [.flowSequenceStart, .flowSequenceEnd]
  | .list (x :: xs) =>
    if loose then itemTokens (x :: xs)
    else .blockSequenceStart :: (itemTokens (x :: xs) ++ [.blockEnd])
  | .map [] => [.flowMappingStart, .flowMappingEnd]
  | .map (e :: es) => .blockMappingStart :: (entryTokens (e :: es) ++ [.blockEnd])
  | .text s => [.scalar s (isPlain s.toList)]
  | d => [.scalar (String.ofList ((scalarForm? d).getD ([], "")).1) true]

def itemTokens : List Datum → List TokenKind
  | [] => []
  | x :: xs => .blockEntry :: (valueTokens false x ++ itemTokens xs)

def entryTokens : List (Datum × Datum) → List TokenKind
  | [] => []
  | (k, v) :: es =>
    .key :: (valueTokens false k ++ .value :: (valueTokens (isSimpleKey k) v ++ entryTokens es))

end

theorem valueTokens_map {loose : Bool} {es : List (Datum × Datum)} (filled : es ≠ []) :
    valueTokens loose (.map es) = .blockMappingStart :: (entryTokens es ++ [.blockEnd]) := by
  obtain ⟨e, es, rfl⟩ := List.exists_cons_of_ne_nil filled
  rfl

/-! ## Values of nodes -/

/-- The value of a node, at any depth. -/
def Gives (node : Node) (d : Datum) : Prop :=
  ∀ fuel depth : Nat, depthOf node ≤ fuel → nodeValue fuel depth node = .ok d

/-- A node as which a text is written. -/
def textNode (s : String) (line : Nat) : Node :=
  .scalar (if isPlain s.toList then .byText else .byShape) s line

theorem kind_textNode (s : String) (line : Nat) : (textNode s line).kind = .text := by
  unfold textNode
  split
  · next plain =>
    simp only [isPlain, Bool.and_eq_true, beq_iff_eq] at plain
    exact plain.1.1.1.1.1
  · rfl

theorem gives_scalar {kind : Kind} {tag : Tag} {s : String} {line : Nat} {d : Datum}
    (hk : (Node.scalar tag s line).kind = kind)
    (simple : kind ∈ [.null, .whole, .text]) (value : scalarValue kind s line = .ok d) :
    Gives (.scalar tag s line) d := by
  intro fuel depth deep
  obtain ⟨fuel, rfl⟩ : ∃ n, fuel = n + 1 := ⟨fuel - 1, by simp [depthOf] at deep; omega⟩
  unfold nodeValue
  rw [hk]
  simp only [List.mem_cons, List.not_mem_nil, or_false] at simple
  rcases simple with rfl | rfl | rfl <;> simp [scalarOf, scalarText, hk, value, atDepth, Node.line]

theorem gives_text (s : String) (line : Nat) : Gives (textNode s line) (.text s) :=
  gives_scalar (kind_textNode s line) (by simp) rfl

theorem gives_null (line : Nat) : Gives (.scalar .byText "null" line) .null :=
  @gives_scalar .null _ _ _ _ rfl (by simp) rfl

theorem gives_sequence {items : List Node} {xs : List Datum} (h : List.Forall₂ Gives items xs)
    (line : Nat) : Gives (.sequence .byShape items line) (.list xs) := by
  intro fuel depth deep
  rw [depthOf] at deep
  obtain ⟨fuel, rfl⟩ : ∃ n, fuel = n + 1 := ⟨fuel - 1, by omega⟩
  have all : allValues (nodeValue fuel (depth + 1)) items = .ok xs := by
    have deep : depthOfAll items ≤ fuel := by omega
    induction h with
    | nil => rfl
    | cons first _ ih =>
      rw [depthOfAll, Nat.max_le] at deep
      rw [allValues, first _ _ deep.1, ih (by omega) deep.2]
      rfl
  simp only [nodeValue, Node.kind, all]
  rfl

/-- Nodes of an entry with a text as its key. -/
def GivesEntry (node : Node × Node) (e : String × Datum) : Prop :=
  (∃ line, node.1 = textNode e.1 line) ∧ Gives node.2 e.2

theorem flattenEntries_texts {nodes : List (Node × Node)} {es : List (String × Datum)}
    (h : List.Forall₂ GivesEntry nodes es) : flattenEntries nodes = .ok ([], nodes) := by
  induction h with
  | nil => rfl
  | @cons node e nodes es first _ ih =>
    obtain ⟨⟨line, key⟩, -⟩ := first
    obtain ⟨k, v⟩ := node
    obtain rfl : k = textNode e.1 line := key
    have plain : plainKey (textNode e.1 line) = textNode e.1 line := by
      unfold plainKey
      rw [kind_textNode]
    rw [flattenEntries, kind_textNode, ih, plain]
    rfl

theorem gives_mapping {nodes : List (Node × Node)} {es : List (String × Datum)}
    (h : List.Forall₂ GivesEntry nodes es) (keys : (es.map (·.1)).Nodup) (line : Nat) :
    Gives (.mapping .byShape nodes line) (.record es) := by
  intro fuel depth deep
  rw [depthOf] at deep
  obtain ⟨fuel, rfl⟩ : ∃ n, fuel = n + 1 := ⟨fuel - 1, by omega⟩
  have all : entryValues (nodeValue fuel (depth + 1)) (depth + 1) nodes =
      .ok (es.map fun e => (.text e.1, e.2)) := by
    have deep : depthOfEntries nodes ≤ fuel := by omega
    clear keys
    induction h with
    | nil => rfl
    | @cons node e nodes es first _ ih =>
      obtain ⟨⟨line, key⟩, value⟩ := first
      obtain ⟨k, v⟩ := node
      obtain rfl : k = textNode e.1 line := key
      rw [depthOfEntries, Nat.max_le, Nat.max_le] at deep
      have key : keyValue (nodeValue fuel (depth + 1)) (depth + 1) (textNode e.1 line) =
          .ok (.text e.1) := by
        rw [keyValue, kind_textNode]
        exact gives_text e.1 line _ _ deep.1.1
      rw [entryValues, key, value _ _ deep.1.2, ih (by omega) deep.2]
      rfl
  have flat : flatten (.mapping .byShape nodes line) = .ok nodes := by
    rw [flatten, flattenEntries_texts h]
    rfl
  have joined : joinEntries (es.map fun e => (.text e.1, e.2)) =
      es.map fun e => (.text e.1, e.2) := by
    have put := @Datum.foldl_put [] es (by simpa using keys)
    rw [joinEntries, List.foldl_map]
    simpa using put
  simp only [nodeValue, Node.kind, flat, atDepth, ok_bind, all, joined]
  rfl

/-! ## Joining tokens -/

namespace Joiner

/-- The tokens that are left, in a document without directives or anchors. -/
def on (ts : List Token) : Joiner := ⟨⟨ts, none⟩, commonHandles, []⟩

variable {t : Token} {ts : List Token} {block inMapping : Bool} {fuel : Nat}

theorem peek_on (t : Token) (ts : List Token) : (on (t :: ts)).peek = .ok t := rfl

theorem pop_on (t : Token) (ts : List Token) : (on (t :: ts)).pop = on ts := rfl

theorem readProperties_on (anchor : readAnchor? t = none) (tag : readTag? t = none) :
    (on (t :: ts)).readProperties = .ok (⟨none, none, none⟩, on (t :: ts)) := by
  rw [readProperties, peek_on, ok_bind, anchor, tag]
  rfl

theorem readNode_scalar {s : String} {plain : Bool} (h : t.kind = .scalar s plain) :
    readNode block inMapping (fuel + 1) (on (t :: ts)) =
      .ok (.scalar (scalarTag plain none) s t.line, on ts) := by
  have anchor : readAnchor? t = none := by simp [readAnchor?, h]
  have tag : readTag? t = none := by simp [readTag?, h]
  rw [readNode, peek_on, ok_bind, h]
  simp only [readProperties_on anchor tag, ok_bind, tagName?, peek_on, h]
  rfl

variable {rest : Joiner} {items : List Node} {entries : List (Node × Node)}

theorem readNode_blockSequence (h : t.kind = .blockSequenceStart)
    (read : readBlockItems fuel (on ts) = .ok (items, rest)) :
    readNode true inMapping (fuel + 1) (on (t :: ts)) =
      .ok (.sequence .byShape items t.line, rest) := by
  have anchor : readAnchor? t = none := by simp [readAnchor?, h]
  have tag : readTag? t = none := by simp [readTag?, h]
  rw [readNode, peek_on, ok_bind, h]
  simp only [readProperties_on anchor tag, ok_bind, tagName?, peek_on, h, pop_on, bind, read]
  rfl

theorem readNode_loose (h : t.kind = .blockEntry)
    (read : readLooseEntries fuel (on (t :: ts)) = .ok (items, rest)) :
    readNode block true (fuel + 1) (on (t :: ts)) =
      .ok (.sequence .byShape items t.line, rest) := by
  have anchor : readAnchor? t = none := by simp [readAnchor?, h]
  have tag : readTag? t = none := by simp [readTag?, h]
  rw [readNode, peek_on, ok_bind, h]
  simp only [readProperties_on anchor tag, ok_bind, tagName?, peek_on, h, bind, read]
  rfl

theorem readNode_blockMapping (h : t.kind = .blockMappingStart)
    (read : readBlockEntries fuel (on ts) = .ok (entries, rest)) :
    readNode true inMapping (fuel + 1) (on (t :: ts)) =
      .ok (.mapping .byShape entries t.line, rest) := by
  have anchor : readAnchor? t = none := by simp [readAnchor?, h]
  have tag : readTag? t = none := by simp [readTag?, h]
  rw [readNode, peek_on, ok_bind, h]
  simp only [readProperties_on anchor tag, ok_bind, tagName?, peek_on, h, pop_on, bind, read]
  rfl

theorem readNode_flowSequence {t' : Token} (h : t.kind = .flowSequenceStart)
    (h' : t'.kind = .flowSequenceEnd) :
    readNode block inMapping (fuel + 2) (on (t :: t' :: ts)) =
      .ok (.sequence .byShape [] t.line, on ts) := by
  have anchor : readAnchor? t = none := by simp [readAnchor?, h]
  have tag : readTag? t = none := by simp [readTag?, h]
  have read : readFlowItems true (fuel + 1) (on (t' :: ts)) = .ok ([], on ts) := by
    rw [readFlowItems, peek_on, ok_bind, h']
    rfl
  rw [readNode, peek_on, ok_bind, h]
  simp only [readProperties_on anchor tag, ok_bind, tagName?, peek_on, h, pop_on, bind, read]
  rfl

theorem readNode_flowMapping {t' : Token} (h : t.kind = .flowMappingStart)
    (h' : t'.kind = .flowMappingEnd) :
    readNode block inMapping (fuel + 2) (on (t :: t' :: ts)) =
      .ok (.mapping .byShape [] t.line, on ts) := by
  have anchor : readAnchor? t = none := by simp [readAnchor?, h]
  have tag : readTag? t = none := by simp [readTag?, h]
  have read : readFlowEntries true (fuel + 1) (on (t' :: ts)) = .ok ([], on ts) := by
    rw [readFlowEntries, peek_on, ok_bind, h']
    rfl
  rw [readNode, peek_on, ok_bind, h]
  simp only [readProperties_on anchor tag, ok_bind, tagName?, peek_on, h, pop_on, bind, read]
  rfl

end Joiner

/-! ## Tokens of values -/

/-- The tokens that a value may start with. -/
def startsValue : TokenKind → Bool
  | .scalar _ _ | .flowSequenceStart | .flowMappingStart => true
  | .blockSequenceStart | .blockMappingStart | .blockEntry => true
  | _ => false

theorem valueTokens_cons (loose : Bool) (d : Datum) :
    ∃ k more, valueTokens loose d = k :: more ∧ startsValue k = true ∧
      (loose = false → k ≠ .blockEntry) := by
  cases d with
  | list xs =>
    cases xs with
    | nil => exact ⟨_, _, rfl, rfl, by simp⟩
    | cons x xs =>
      cases loose with
      | true => exact ⟨_, _, rfl, rfl, by simp⟩
      | false => exact ⟨_, _, rfl, rfl, by simp⟩
  | map es =>
    cases es with
    | nil => exact ⟨_, _, rfl, rfl, by simp⟩
    | cons e es => exact ⟨_, _, rfl, rfl, by simp⟩
  | null | bool b | int k | real x | text s | time t => exact ⟨_, _, rfl, rfl, by simp⟩

/-- What may come after a value: after a loose one no further item. -/
def Follows (loose : Bool) (rest : List Token) : Prop :=
  loose = true → ∃ t more, rest = t :: more ∧ t.kind ≠ .blockEntry

/-- The tokens of a value join to a node that gives it. -/
def Joins (d : Datum) : Prop :=
  ∀ {loose inMapping : Bool} {ts rest : List Token} {fuel : Nat},
    ts.map (·.kind) = valueTokens loose d → (loose = true → inMapping = true) →
    Follows loose rest → 4 * ts.length ≤ fuel →
    ∃ node, Joiner.readNode true inMapping fuel (.on (ts ++ rest)) = .ok (node, .on rest) ∧
      Gives node d

namespace Joiner

variable {ts rest : List Token} {fuel : Nat} {loose : Bool} {d : Datum}

theorem readOptional_joins (joins : Joins d) (inMapping : Bool) {ends : List TokenKind}
    (hends : ∀ k ∈ ends, startsValue k = false ∨ k = .blockEntry ∧ loose = false)
    (line : Nat) (kinds : ts.map (·.kind) = valueTokens loose d) (mapping : loose = true → inMapping = true)
    (follows : Follows loose rest) (hf : 4 * ts.length < fuel) :
    ∃ node, readOptional true inMapping ends line fuel (on (ts ++ rest)) = .ok (node, on rest) ∧
      Gives node d := by
  cases fuel with
  | zero => exact absurd hf (Nat.not_lt_zero _)
  | succ fuel =>
    obtain ⟨node, read, gives⟩ := joins kinds mapping follows (Nat.le_of_lt_succ hf)
    refine ⟨node, ?_, gives⟩
    obtain ⟨k, more, first, starts, entry⟩ := valueTokens_cons loose d
    rw [first] at kinds
    obtain ⟨t, ts, rfl, rfl, -⟩ := List.map_eq_cons_iff.mp kinds
    have going : isAt ends t = false := by
      rw [isAt, List.contains_eq_mem, decide_eq_false_iff_not]
      intro ht
      rcases hends _ ht with h | ⟨h, hl⟩
      · rw [starts] at h
        exact Bool.noConfusion h
      · exact entry hl h
    rw [List.cons_append] at read ⊢
    rw [readOptional, peek_on, ok_bind, going, if_neg Bool.false_ne_true, read]

theorem readBlockItems_joins {xs : List Datum} (joins : ∀ x ∈ xs, Joins x)
    (kinds : ts.map (·.kind) = itemTokens xs ++ [.blockEnd]) (hf : 4 * ts.length ≤ fuel) :
    ∃ nodes, readBlockItems fuel (on (ts ++ rest)) = .ok (nodes, on rest) ∧
      List.Forall₂ Gives nodes xs := by
  induction xs generalizing ts fuel with
  | nil =>
    obtain ⟨t, ts, rfl, ht, none⟩ := List.map_eq_cons_iff.mp kinds
    obtain rfl := List.map_eq_nil_iff.mp none
    cases fuel with
    | zero => simp at hf
    | succ fuel =>
      refine ⟨[], ?_, .nil⟩
      rw [List.cons_append, readBlockItems, peek_on, ok_bind, ht]
      rfl
  | cons x xs ih =>
    obtain ⟨hx, hxs⟩ := List.forall_mem_cons.mp joins
    rw [itemTokens, List.cons_append, List.append_assoc] at kinds
    obtain ⟨t, ts, rfl, ht, kinds⟩ := List.map_eq_cons_iff.mp kinds
    obtain ⟨vs, ws, rfl, value, more⟩ := List.map_eq_append_iff.mp kinds
    rw [List.length_cons, List.length_append] at hf
    cases fuel with
    | zero => simp at hf
    | succ fuel =>
      have ends : ∀ k ∈ [TokenKind.blockEntry, .blockEnd],
          startsValue k = false ∨ k = .blockEntry ∧ false = false := by simp [startsValue]
      have follows : Follows false (ws ++ rest) := fun h => absurd h Bool.false_ne_true
      obtain ⟨node, read, gives⟩ := readOptional_joins hx false ends t.line value (by simp) follows
        (by omega : 4 * vs.length < fuel)
      obtain ⟨nodes, readRest, givesRest⟩ := ih hxs more (by omega : 4 * ws.length ≤ fuel)
      refine ⟨node :: nodes, ?_, .cons gives givesRest⟩
      rw [List.cons_append, List.append_assoc, readBlockItems, peek_on, ok_bind, ht]
      simp only [pop_on, read, ok_bind, readRest]
      rfl

theorem readLooseEntries_joins {xs : List Datum} (joins : ∀ x ∈ xs, Joins x)
    (kinds : ts.map (·.kind) = itemTokens xs) (follows : Follows true rest)
    (hf : 4 * ts.length < fuel + 2) (pos : 0 < fuel) :
    ∃ nodes, readLooseEntries fuel (on (ts ++ rest)) = .ok (nodes, on rest) ∧
      List.Forall₂ Gives nodes xs := by
  induction xs generalizing ts fuel with
  | nil =>
    obtain rfl := List.map_eq_nil_iff.mp kinds
    obtain ⟨t, more, rfl, ht⟩ := follows rfl
    obtain ⟨fuel, rfl⟩ := Nat.exists_eq_add_of_lt pos
    refine ⟨[], ?_, .nil⟩
    rw [List.nil_append, Nat.zero_add, readLooseEntries, peek_on, ok_bind]
    split
    · next h => exact absurd h ht
    · rfl
  | cons x xs ih =>
    obtain ⟨hx, hxs⟩ := List.forall_mem_cons.mp joins
    rw [itemTokens] at kinds
    obtain ⟨t, ts, rfl, ht, kinds⟩ := List.map_eq_cons_iff.mp kinds
    obtain ⟨vs, ws, rfl, value, more⟩ := List.map_eq_append_iff.mp kinds
    have filled : 0 < vs.length := by
      obtain ⟨k, ks, first, -⟩ := valueTokens_cons false x
      rw [← List.length_map (·.kind), value, first]
      exact Nat.succ_pos _
    rw [List.length_cons, List.length_append] at hf
    obtain ⟨fuel, rfl⟩ := Nat.exists_eq_add_of_lt pos
    have ends : ∀ k ∈ [TokenKind.blockEntry, .key, .value, .blockEnd],
        startsValue k = false ∨ k = .blockEntry ∧ false = false := by simp [startsValue]
    have follows' : Follows false (ws ++ rest) := fun h => absurd h Bool.false_ne_true
    obtain ⟨node, read, gives⟩ := readOptional_joins hx false ends t.line value (by simp) follows'
      (by omega : 4 * vs.length < fuel)
    obtain ⟨nodes, readRest, givesRest⟩ := ih hxs more (by omega : 4 * ws.length < fuel + 2) (by omega)
    refine ⟨node :: nodes, ?_, .cons gives givesRest⟩
    rw [List.cons_append, List.append_assoc, Nat.zero_add, readLooseEntries, peek_on, ok_bind, ht]
    simp only [pop_on, read, ok_bind, readRest]
    rfl

theorem readBlockValue_joins (joins : Joins d) {t : Token} (ht : t.kind = .value)
    (kinds : ts.map (·.kind) = valueTokens loose d) (follows : Follows loose rest)
    (hf : 4 * ts.length + 1 < fuel) :
    ∃ node, readBlockValue fuel (on (t :: (ts ++ rest))) = .ok (node, on rest) ∧ Gives node d := by
  cases fuel with
  | zero => exact absurd hf (Nat.not_lt_zero _)
  | succ fuel =>
    have ends : ∀ k ∈ [TokenKind.key, .value, .blockEnd],
        startsValue k = false ∨ k = .blockEntry ∧ loose = false := by simp [startsValue]
    obtain ⟨node, read, gives⟩ := readOptional_joins joins true ends t.line kinds (fun _ => rfl)
      follows (by omega : 4 * ts.length < fuel)
    refine ⟨node, ?_, gives⟩
    rw [readBlockValue, peek_on, ok_bind, ht]
    exact read

/-- What comes after a value in a mapping is another key or its end. -/
theorem follows_entries {es : List (Datum × Datum)}
    (kinds : ts.map (·.kind) = entryTokens es ++ [.blockEnd]) (loose : Bool) (rest : List Token) :
    Follows loose (ts ++ rest) := by
  intro _
  cases es with
  | nil =>
    obtain ⟨t, ts, rfl, ht, -⟩ := List.map_eq_cons_iff.mp kinds
    exact ⟨t, ts ++ rest, rfl, by simp [ht]⟩
  | cons e es =>
    rw [entryTokens] at kinds
    obtain ⟨t, ts, rfl, ht, -⟩ := List.map_eq_cons_iff.mp kinds
    exact ⟨t, ts ++ rest, rfl, by simp [ht]⟩

theorem readBlockEntries_joins {es : List (String × Datum)} (joins : ∀ e ∈ es, Joins e.2)
    (kinds : ts.map (·.kind) = entryTokens (es.map fun e => (.text e.1, e.2)) ++ [.blockEnd])
    (hf : 4 * ts.length ≤ fuel) :
    ∃ nodes, readBlockEntries fuel (on (ts ++ rest)) = .ok (nodes, on rest) ∧
      List.Forall₂ GivesEntry nodes es := by
  induction es generalizing ts fuel with
  | nil =>
    obtain ⟨t, ts, rfl, ht, none⟩ := List.map_eq_cons_iff.mp kinds
    obtain rfl := List.map_eq_nil_iff.mp none
    cases fuel with
    | zero => simp at hf
    | succ fuel =>
      refine ⟨[], ?_, .nil⟩
      rw [List.cons_append, readBlockEntries, peek_on, ok_bind, ht]
      rfl
  | cons e es ih =>
    obtain ⟨he, hes⟩ := List.forall_mem_cons.mp joins
    simp only [List.map_cons, entryTokens, List.cons_append, List.append_assoc] at kinds
    obtain ⟨t, ts, rfl, ht, kinds⟩ := List.map_eq_cons_iff.mp kinds
    obtain ⟨k, ts, rfl, hk, kinds⟩ := List.map_eq_cons_iff.mp kinds
    obtain ⟨c, ts, rfl, hc, kinds⟩ := List.map_eq_cons_iff.mp kinds
    obtain ⟨vs, ws, rfl, value, more⟩ := List.map_eq_append_iff.mp kinds
    simp only [List.length_cons, List.length_append] at hf
    obtain ⟨fuel, rfl⟩ : ∃ n, fuel = n + 3 := ⟨fuel - 3, by omega⟩
    have key : readOptional true true [.key, .value, .blockEnd] t.line (fuel + 2)
        (on (k :: c :: (vs ++ (ws ++ rest)))) =
        .ok (textNode e.1 k.line, on (c :: (vs ++ (ws ++ rest)))) := by
      have going : isAt [.key, .value, .blockEnd] k = false := by rw [isAt, hk]; rfl
      rw [readOptional, peek_on, ok_bind, going, if_neg Bool.false_ne_true, readNode_scalar hk]
      cases plain : isPlain e.1.toList <;> simp [scalarTag, textNode, plain]
    obtain ⟨node, read, gives⟩ := readBlockValue_joins he hc value
      (follows_entries more (isSimpleKey (.text e.1)) rest) (by omega : 4 * vs.length + 1 < fuel + 2)
    obtain ⟨nodes, readRest, givesRest⟩ := ih hes more (by omega : 4 * ws.length ≤ fuel + 2)
    refine ⟨(textNode e.1 k.line, node) :: nodes, ?_, .cons ⟨⟨k.line, rfl⟩, gives⟩ givesRest⟩
    simp only [List.cons_append, List.append_assoc]
    rw [readBlockEntries, peek_on, ok_bind, ht]
    simp only [pop_on, key, read, ok_bind, readRest]
    rfl

end Joiner

variable {d : Datum}

theorem joins_scalar {s : String} {plain : Bool}
    (tokens : ∀ loose, valueTokens loose d = [.scalar s plain])
    (gives : ∀ line, Gives (.scalar (Joiner.scalarTag plain none) s line) d) : Joins d := by
  intro loose inMapping ts rest fuel kinds mapping follows hf
  rw [tokens] at kinds
  obtain ⟨t, ts, rfl, ht, none⟩ := List.map_eq_cons_iff.mp kinds
  obtain rfl := List.map_eq_nil_iff.mp none
  obtain ⟨fuel, rfl⟩ : ∃ n, fuel = n + 1 := ⟨fuel - 1, by simp at hf; omega⟩
  exact ⟨_, Joiner.readNode_scalar ht, gives t.line⟩

theorem joins_text (s : String) : Joins (.text s) := by
  refine joins_scalar (fun _ => rfl) fun line => ?_
  have node : Node.scalar (Joiner.scalarTag (isPlain s.toList) none) s line = textNode s line := by
    cases plain : isPlain s.toList <;> simp [Joiner.scalarTag, textNode, plain]
  exact node ▸ gives_text s line

theorem joins_null : Joins .null := @joins_scalar .null "null" true (fun _ => rfl) gives_null

theorem joins_list {xs : List Datum} (joins : ∀ x ∈ xs, Joins x) : Joins (.list xs) := by
  intro loose inMapping ts rest fuel kinds mapping follows hf
  cases xs with
  | nil =>
    obtain ⟨t, ts, rfl, ht, kinds⟩ := List.map_eq_cons_iff.mp kinds
    obtain ⟨t', ts, rfl, ht', none⟩ := List.map_eq_cons_iff.mp kinds
    obtain rfl := List.map_eq_nil_iff.mp none
    obtain ⟨fuel, rfl⟩ : ∃ n, fuel = n + 2 := ⟨fuel - 2, by simp at hf; omega⟩
    exact ⟨_, Joiner.readNode_flowSequence ht ht', gives_sequence .nil t.line⟩
  | cons x xs =>
    cases loose with
    | true =>
      obtain rfl := mapping rfl
      have filled : 0 < ts.length := by
        rw [← List.length_map (·.kind), kinds]
        exact Nat.succ_pos _
      obtain ⟨fuel, rfl⟩ : ∃ n, fuel = n + 1 := ⟨fuel - 1, by omega⟩
      obtain ⟨nodes, read, gives⟩ := Joiner.readLooseEntries_joins joins kinds follows
        (by omega : 4 * ts.length < fuel + 2) (by omega)
      obtain ⟨t, ts, rfl, ht, -⟩ := List.map_eq_cons_iff.mp kinds
      exact ⟨_, Joiner.readNode_loose ht read, gives_sequence gives t.line⟩
    | false =>
      obtain ⟨t, ts, rfl, ht, kinds⟩ := List.map_eq_cons_iff.mp kinds
      rw [List.length_cons] at hf
      obtain ⟨fuel, rfl⟩ : ∃ n, fuel = n + 1 := ⟨fuel - 1, by omega⟩
      obtain ⟨nodes, read, gives⟩ := Joiner.readBlockItems_joins joins kinds
        (by omega : 4 * ts.length ≤ fuel)
      exact ⟨_, Joiner.readNode_blockSequence ht read, gives_sequence gives t.line⟩

theorem joins_record {es : List (String × Datum)} (joins : ∀ e ∈ es, Joins e.2)
    (keys : (es.map (·.1)).Nodup) : Joins (.record es) := by
  intro loose inMapping ts rest fuel kinds mapping follows hf
  cases es with
  | nil =>
    obtain ⟨t, ts, rfl, ht, kinds⟩ := List.map_eq_cons_iff.mp kinds
    obtain ⟨t', ts, rfl, ht', none⟩ := List.map_eq_cons_iff.mp kinds
    obtain rfl := List.map_eq_nil_iff.mp none
    obtain ⟨fuel, rfl⟩ : ∃ n, fuel = n + 2 := ⟨fuel - 2, by simp at hf; omega⟩
    exact ⟨_, Joiner.readNode_flowMapping ht ht', gives_mapping .nil .nil t.line⟩
  | cons e es =>
    rw [Datum.record, valueTokens_map (by simp)] at kinds
    obtain ⟨t, ts, rfl, ht, kinds⟩ := List.map_eq_cons_iff.mp kinds
    rw [List.length_cons] at hf
    obtain ⟨fuel, rfl⟩ : ∃ n, fuel = n + 1 := ⟨fuel - 1, by omega⟩
    obtain ⟨nodes, read, gives⟩ := Joiner.readBlockEntries_joins joins kinds
      (by omega : 4 * ts.length ≤ fuel)
    exact ⟨_, Joiner.readNode_blockMapping ht read, gives_mapping gives keys t.line⟩

end Neogrammar.Yaml
