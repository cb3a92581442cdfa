import Neogrammar.Proofs.Yaml.Blocks
import Neogrammar.Proofs.Yaml.Numerals

/-!
# Written YAML is read back

What is written for a map of plain data is read as these data, if every text keeps its breaks.
-/
namespace Neogrammar.Yaml

variable {d : Datum} {n : Nat}

theorem joins_int {k : Int} (short : (Datum.int k).IsShort) : Joins (.int k) := by
  refine joins_scalar (fun _ => rfl) fun line => ?_
  have kind : (Node.scalar .byText (String.ofList (Text.intText k).toList) line).kind = .whole := by
    rw [Node.kind, String.toList_ofList, kindOf_intText]
  have read : readWhole (String.ofList (Text.intText k).toList).toList = .ok k := by
    rw [String.toList_ofList, readWhole_intText k (short k rfl)]
  exact gives_scalar kind (by simp) (congrArg (Except.map Datum.int) read)

/-- The tokens of plain data join to a node that gives them. -/
theorem joins_value (h : d.Plain n) (short : ∀ e ∈ d.leaves, e.IsShort) : Joins d := by
  induction h with
  | null => exact joins_null
  | int k => exact joins_int (short _ (by simp))
  | text s => exact joins_text s
  | list _ ih => exact joins_list fun x hx => ih x hx (Datum.leaves_of_mem_list short hx)
  | record keys _ _ ih =>
    exact joins_record (fun e he => ih e he (Datum.leaves_of_mem_record short he).2) keys

theorem isAllowed_of_special {c : Char} (h : isSpecial c = false) : isAllowed c = true := by
  by_cases feed : c = '\n'
  · rw [feed]
    rfl
  simp only [isSpecial, Bool.not_eq_false', Bool.or_eq_true, Bool.and_eq_true, decide_eq_true_eq,
    beq_iff_eq, bne_iff_ne, feed, false_or] at h
  have le (e : Char) : e ≤ c ↔ e.toNat ≤ c.toNat := Iff.rfl
  have ge (e : Char) : c ≤ e ↔ c.toNat ≤ e.toNat := Iff.rfl
  have next : c = '\x85' ↔ c.toNat = 0x85 := by
    rw [← Char.toNat_inj]
    rfl
  simp only [isAllowed, Bool.or_eq_true, Bool.and_eq_true, decide_eq_true_eq, beq_iff_eq, le, ge, next]
  have space : '\x20'.toNat = 0x20 := rfl
  have tilde : '\x7e'.toNat = 0x7E := rfl
  have wide : '\xa0'.toNat = 0xA0 := rfl
  have last : '\ufffd'.toNat = 0xFFFD := rfl
  rw [space, tilde, wide, last]
  omega

namespace Joiner

variable {t : Token} {ts : List Token}

/-- A document without directives and marks is read as its node. -/
theorem readContent_value (starts : startsValue t.kind = true) :
    readContent ⟨⟨t :: ts, none⟩, [], []⟩ =
      readNode true false (fuel (on (t :: ts))) (on (t :: ts)) := by
  have document : (t.kind == .documentStart) = false := by
    rw [beq_eq_false_iff_ne]
    intro h
    simp [h, startsValue] at starts
  have directive : isDirective t = false := by
    unfold isDirective
    split <;> simp_all [startsValue]
  rw [readContent]
  show (if isDirective t || t.kind == .documentStart then _ else _) = _
  rw [directive, document, Bool.or_false, if_neg Bool.false_ne_true]
  rfl

theorem skipEnds_streamEnd (ends : t.kind = .streamEnd) (n : Nat) :
    skipEnds (n + 1) (on [t]) = .ok (on [t]) := by
  rw [skipEnds, peek_on, ok_bind, ends]
  rfl

end Joiner

/-- A document of one node. -/
theorem ofTokens?_joins (joins : Joins d) {queue : List Token}
    (kinds : queue.map (·.kind) = valueTokens false d ++ [.streamEnd]) :
    ∃ node, Node.ofTokens? ⟨queue, none⟩ = .ok (some node) ∧ Gives node d := by
  obtain ⟨ts, last, rfl, value, hl⟩ := List.map_eq_append_iff.mp kinds
  obtain ⟨e, last, rfl, he, nil⟩ := List.map_eq_cons_iff.mp hl
  obtain rfl := List.map_eq_nil_iff.mp nil
  have enough : 4 * ts.length ≤ Joiner.fuel (.on (ts ++ [e])) := by
    simp only [Joiner.fuel, Joiner.on, List.length_append]
    omega
  obtain ⟨node, read, gives⟩ := @joins false false ts [e] _ value (by simp)
    (fun h => absurd h Bool.false_ne_true) enough
  refine ⟨node, ?_, gives⟩
  obtain ⟨k, more, first, starts, -⟩ := valueTokens_cons false d
  rw [first] at value
  obtain ⟨t, ts, rfl, rfl, -⟩ := List.map_eq_cons_iff.mp value
  have stream : (t.kind == .streamEnd) = false := by
    rw [beq_eq_false_iff_ne]
    intro h
    simp [h, startsValue] at starts
  rw [List.cons_append] at read
  have content : Joiner.readContent ⟨⟨t :: (ts ++ [e]), none⟩, [], []⟩ = .ok (node, .on [e]) :=
    (Joiner.readContent_value starts).trans read
  show (if t.kind == .streamEnd then _ else Joiner.readContent _ >>= _) = _
  rw [stream, if_neg Bool.false_ne_true]
  show Joiner.readContent ⟨⟨t :: (ts ++ [e]), none⟩, [], []⟩ >>= _ = _
  rw [content]
  show Joiner.skipEnds (19 + 1) (Joiner.on [e]) >>= _ = _
  rw [Joiner.skipEnds_streamEnd he, ok_bind, Joiner.peek_on, ok_bind, he]
  rfl

theorem write_nil : write [] = "\x7b\x7d\n" := rfl

/-- What is written for a map of plain data, and is not nested so deep that lines run out of columns,
is read as these data, if every text keeps its breaks. -/
theorem read_write {es : List (Datum × Datum)} (h : (Datum.map es).Plain (n + 1))
    (keeps : ∀ d ∈ (Datum.map es).leaves, KeepsBreaks d)
    (short : ∀ d ∈ (Datum.map es).leaves, d.IsShort) (narrow : 2 * n + 2 < lineWidth) :
    '\r' ∉ (write es).toList ∧ read (write es) = .ok (.map es) := by
  have joins : Joins (.map es) := joins_value h short
  cases h with
  | @record _ es keys limit values =>
    by_cases filled : es = []
    · subst filled
      rw [List.map_nil, write_nil]
      exact ⟨by decide, rfl⟩
    · have printed := printed_write values filled
      obtain ⟨queue, tokens, kinds⟩ := tokens_write values filled limit keeps narrow
      obtain ⟨node, joined, gives⟩ := ofTokens?_joins joins kinds
      have allowed : (write (es.map fun e => (.text e.1, e.2))).toList.all isAllowed = true :=
        List.all_eq_true.mpr fun c hc => isAllowed_of_special (printed c hc)
      refine ⟨fun hr => absurd (printed _ hr) (by decide), ?_⟩
      rw [read, nodeOf?, allowed, if_pos rfl, tokens, joined, ok_bind]
      show node.value = _
      rw [Node.value, gives _ _ (Nat.le_refl _)]

end Neogrammar.Yaml
