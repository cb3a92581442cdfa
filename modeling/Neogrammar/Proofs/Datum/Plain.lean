import Neogrammar.Datum.Display

/-!
# Plain data

The data that every notation has a form for: nothing, whole numbers, texts, lists, and records whose
keys are short and differ. Conditions on single values are conditions on the leaves.
-/
namespace Neogrammar.Datum

mutual

/-- The single values of a datum, keys among them, in order. -/
def leaves : Datum → List Datum
  | .list xs => leavesOfAll xs
  | .map es => leavesOfEntries es
  | d => [d]

def leavesOfAll : List Datum → List Datum
  | [] => []
  | x :: xs => leaves x ++ leavesOfAll xs

def leavesOfEntries : List (Datum × Datum) → List Datum
  | [] => []
  | (k, v) :: es => leaves k ++ leaves v ++ leavesOfEntries es

end

theorem leavesOfAll_eq (xs : List Datum) : leavesOfAll xs = xs.flatMap leaves := by
  induction xs with
  | nil => rfl
  | cons x xs ih => rw [leavesOfAll, ih, List.flatMap_cons]

theorem leavesOfEntries_eq (es : List (Datum × Datum)) :
    leavesOfEntries es = es.flatMap fun e => e.1.leaves ++ e.2.leaves := by
  induction es with
  | nil => rfl
  | cons e es ih => rw [leavesOfEntries, ih, List.flatMap_cons]

@[simp] theorem leaves_null : null.leaves = [null] := rfl
@[simp] theorem leaves_int (n : Int) : (int n).leaves = [int n] := rfl
@[simp] theorem leaves_text (s : String) : (text s).leaves = [text s] := rfl

@[simp] theorem leaves_list (xs : List Datum) : (list xs).leaves = xs.flatMap leaves := by
  rw [leaves, leavesOfAll_eq]

@[simp] theorem leaves_record (es : List (String × Datum)) :
    (record es).leaves = es.flatMap fun e => text e.1 :: e.2.leaves := by
  rw [record, leaves, leavesOfEntries_eq, List.flatMap_map]
  rfl

/-- The length that a key of plain data may have. -/
def keyLimit : Nat := 100

/-- Data without truth values, fractions and points in time, whose maps are from different short
texts, in at most so many levels of lists and maps. -/
inductive Plain : Nat → Datum → Prop
  | null {n : Nat} : Plain n .null
  | int {n : Nat} (k : Int) : Plain n (.int k)
  | text {n : Nat} (s : String) : Plain n (.text s)
  | list {n : Nat} {xs : List Datum} (items : ∀ x ∈ xs, Plain n x) : Plain (n + 1) (.list xs)
  | record {n : Nat} {es : List (String × Datum)} (keys : (es.map (·.1)).Nodup)
      (short : ∀ e ∈ es, e.1.length ≤ keyLimit) (values : ∀ e ∈ es, Plain n e.2) :
      Plain (n + 1) (.record es)

theorem Plain.mono {m n : Nat} {d : Datum} (h : d.Plain m) (le : m ≤ n) : d.Plain n := by
  induction h generalizing n with
  | null => exact .null
  | int k => exact .int k
  | text s => exact .text s
  | list _ ih =>
    cases n with
    | zero => exact absurd le (Nat.not_succ_le_zero _)
    | succ n => exact .list fun x hx => ih x hx (Nat.le_of_succ_le_succ le)
  | record keys short _ ih =>
    cases n with
    | zero => exact absurd le (Nat.not_succ_le_zero _)
    | succ n => exact .record keys short fun e he => ih e he (Nat.le_of_succ_le_succ le)

variable {d : Datum} {P : Datum → Prop}

theorem leaves_of_mem_list {xs : List Datum} {x : Datum} (h : ∀ d ∈ (list xs).leaves, P d)
    (hx : x ∈ xs) : ∀ d ∈ x.leaves, P d := by
  intro d hd
  rw [leaves_list] at h
  exact h d (List.mem_flatMap.mpr ⟨x, hx, hd⟩)

theorem leaves_of_mem_record {es : List (String × Datum)} {e : String × Datum}
    (h : ∀ d ∈ (record es).leaves, P d) (he : e ∈ es) :
    P (text e.1) ∧ ∀ d ∈ e.2.leaves, P d := by
  rw [leaves_record] at h
  refine ⟨h _ (List.mem_flatMap.mpr ⟨e, he, List.mem_cons_self⟩), fun d hd => ?_⟩
  exact h d (List.mem_flatMap.mpr ⟨e, he, List.mem_cons_of_mem _ hd⟩)

/-- A whole number that is not too long to be read. -/
def IsShort (d : Datum) : Prop :=
  ∀ n, d = .int n → (Nat.toDigits 10 n.natAbs).length ≤ Text.digitLimit

instance : (d : Datum) → Decidable d.IsShort
  | .int n => decidable_of_iff ((Nat.toDigits 10 n.natAbs).length ≤ Text.digitLimit) <| by
    simp [IsShort]
  | .null | .bool _ | .real _ | .text _ | .time _ | .list _ | .map _ =>
    isTrue fun _ h => by cases h

mutual

/-- A value can be written if none of its numbers is too long. -/
theorem isWritable_of_leaves : {d : Datum} → (∀ e ∈ d.leaves, e.IsShort) → d.isWritable = true
  | .null, _ | .bool _, _ | .real _, _ | .text _, _ | .time _, _ => rfl
  | .int n, short => decide_eq_true (short _ List.mem_cons_self n rfl)
  | .list xs, short => @areWritable_of_leaves xs short
  | .map es, short => @entriesWritable_of_leaves es short

theorem areWritable_of_leaves :
    {xs : List Datum} → (∀ e ∈ leavesOfAll xs, e.IsShort) → areWritable xs = true
  | [], _ => rfl
  | x :: xs, short => by
    rw [leavesOfAll, List.forall_mem_append] at short
    rw [areWritable, isWritable_of_leaves short.1, areWritable_of_leaves short.2]
    rfl

theorem entriesWritable_of_leaves :
    {es : List (Datum × Datum)} → (∀ e ∈ leavesOfEntries es, e.IsShort) → entriesWritable es = true
  | [], _ => rfl
  | (k, v) :: es, short => by
    rw [leavesOfEntries, List.forall_mem_append, List.forall_mem_append] at short
    rw [entriesWritable, isWritable_of_leaves short.1.1, isWritable_of_leaves short.1.2,
      entriesWritable_of_leaves short.2]
    rfl

end

/-! ## Maps with keys that differ -/

theorem put_absent {key : String} {value : Datum} {es : List (String × Datum)}
    (absent : key ∉ es.map (·.1)) :
    put (text key) value (es.map fun e => (text e.1, e.2)) =
      (es ++ [(key, value)]).map fun e => (text e.1, e.2) := by
  induction es with
  | nil => rfl
  | cons e es ih =>
    simp only [List.map_cons, List.mem_cons, not_or] at absent
    have apart : same (text e.1) (text key) = false := by
      rw [same, beq_eq_false_iff_ne]
      exact Ne.symm absent.1
    rw [List.map_cons, put, apart, ih absent.2]
    rfl

/-- Putting entries whose keys differ one by one gives them in their order. -/
theorem foldl_put {before es : List (String × Datum)}
    (keys : ((before ++ es).map (·.1)).Nodup) :
    es.foldl (fun m e => put (text e.1) e.2 m) (before.map fun e => (text e.1, e.2)) =
      (before ++ es).map fun e => (text e.1, e.2) := by
  induction es generalizing before with
  | nil => rw [List.append_nil, List.foldl_nil]
  | cons e es ih =>
    have absent : e.1 ∉ before.map (·.1) := by
      rw [List.map_append, List.map_cons, List.nodup_append] at keys
      exact fun he => keys.2.2 _ he _ List.mem_cons_self rfl
    rw [List.append_cons] at keys ⊢
    rw [List.foldl_cons, put_absent absent, ih keys]

end Neogrammar.Datum
