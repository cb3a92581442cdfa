import Neogrammar.Proofs.Mutation
import Neogrammar.Proofs.Slots

/-!
# Handles

The index of a slot is a handle on it for good. Calls on slots are logged with their outcomes, those
that fail as well. What a handle leads to can be read off the log alone: it is what was stored there
last, or else what was there from the start.
-/
namespace Neogrammar.Slots

variable {α : Type}

/-- A call on slots. What it stores may be nothing, which leaves the slot empty. -/
inductive Call (α : Type) where
  | append (cell : Option α)
  | set (index : Datum) (cell : Option α)
  | remove (index : Datum)
  | get (index : Datum)
  | isLive (index : Int)
  | items

/-- What a call answers if it does not fail. -/
inductive Answer (α : Type) where
  | place (i : Nat)
  | done
  | former (cell : Option α)
  | content (a : α)
  | live (b : Bool)
  | listing (entries : List (Nat × α))

namespace Call

/-- Carry out a call in place. -/
def perform : Call α → Mutation (Slots α) (Answer α)
  | append cell => .place <$> pushInPlace cell
  | set index cell => (fun _ => .done) <$> setInPlace index cell
  | remove index => .former <$> removeInPlace index
  | get index => .content <$> .look (·.get index)
  | isLive n => .look fun s => .ok (.live (s.isLive n))
  | items => .look fun s => .ok (.listing s.items)

/-- The slots that a call leaves behind, whether it fails or not. -/
def next (c : Call α) (s : Slots α) : Slots α := (c.perform.after s).1

def outcome (c : Call α) (s : Slots α) : Except Error (Answer α) := (c.perform.after s).2

/-- The place that a call is on: that of its index, or the one behind all others for what is
appended. -/
def subject? (s : Slots α) : Call α → Option Int
  | append _ => some s.size
  | set index _ | remove index | get index => index.whole?
  | isLive n => some n
  | items => none

end Call

/-- Calls with their outcomes, in the order in which they were made. -/
abbrev Log (α : Type) := List (Call α × Except Error (Answer α))

/-- Make calls one after the other, whatever comes of them. -/
def serve : Slots α → List (Call α) → Slots α × Log α
  | s, [] => (s, [])
  | s, c :: calls =>
    let (last, log) := serve (c.next s) calls
    (last, (c, c.outcome s) :: log)

/-- What a logged call stored at a place, if it stored there. To remove is to store nothing, which
is not the same as not to store. -/
def written (i : Nat) : Call α × Except Error (Answer α) → Option (Option α)
  | (.append cell, .ok (.place j)) => if j = i then some cell else none
  | (.set index cell, .ok _) => if index.whole? = some (i : Int) then some cell else none
  | (.remove index, .ok _) => if index.whole? = some (i : Int) then some none else none
  | _ => none

theorem written_error (c : Call α) (e : Error) (i : Nat) : written i (c, .error e) = none := by
  cases c <;> rfl

/-- What was stored at a place last. -/
def lastWritten (i : Nat) : Log α → Option (Option α)
  | [] => none
  | entry :: log => (lastWritten i log).or (written i entry)

/-- What a handle leads to by the log: what was stored there last, or what was there at the
start. -/
def told (start : Slots α) (log : Log α) (i : Nat) : Option α :=
  (lastWritten i log).getD (start.find? i)

/-! ## One call -/

theorem after_append (cell : Option α) (s : Slots α) :
    (Call.append cell).perform.after s = (s.push cell, .ok (.place s.size)) := by
  rw [Call.perform, Mutation.after_map, settles_push]
  rfl

theorem after_set (index : Datum) (cell : Option α) (s : Slots α) :
    (Call.set index cell).perform.after s =
      match locate index s.size with
      | .ok i => (s.put i cell, .ok .done)
      | .error e => (s, .error e) := by
  rw [Call.perform, Mutation.after_map, settles_set]
  dsimp only [Mutation.silent, set]
  cases locate index s.size <;> rfl

theorem after_remove (index : Datum) (s : Slots α) :
    (Call.remove index).perform.after s =
      match locate index s.size with
      | .ok i => (s.put i none, .ok (.former (s.find? i)))
      | .error e => (s, .error e) := by
  rw [Call.perform, Mutation.after_map, settles_remove]
  dsimp only [remove]
  cases locate index s.size <;> rfl

theorem after_get (index : Datum) (s : Slots α) :
    (Call.get index).perform.after s = (s, (s.get index).map .content) := by
  rw [Call.perform, Mutation.after_map, Mutation.after_look]

section

variable {index : Datum} {n : Int}

theorem outcome_set (whole : index.whole? = some n) (cell : Option α) (s : Slots α) :
    (Call.set index cell).outcome s =
      if 0 ≤ n ∧ n < s.size then .ok .done else .error (.outOfRange index s.size) := by
  rw [Call.outcome, after_set, locate_whole whole]
  split_ifs <;> rfl

theorem outcome_remove (whole : index.whole? = some n) (s : Slots α) :
    (Call.remove index).outcome s =
      if 0 ≤ n ∧ n < s.size then .ok (.former (s.find? n.toNat))
      else .error (.outOfRange index s.size) := by
  rw [Call.outcome, after_remove, locate_whole whole]
  split_ifs <;> rfl

theorem outcome_get (whole : index.whole? = some n) (s : Slots α) :
    (Call.get index).outcome s =
      if 0 ≤ n ∧ n < s.size then
        match s.find? n.toNat with
        | some a => .ok (.content a)
        | none => .error (.vacant index)
      else .error (.outOfRange index s.size) := by
  rw [Call.outcome, after_get, get, locate_whole whole]
  split_ifs
  · rw [ok_bind]
    cases s.find? n.toNat <;> rfl
  · rfl

end

/-- What a call may come to: its outcome, with the slots that it leaves behind. -/
inductive Effect (s : Slots α) : Call α → Except Error (Answer α) → Slots α → Prop where
  | appended (cell : Option α) : Effect s (.append cell) (.ok (.place s.size)) (s.push cell)
  | stored {index : Datum} {i : Nat} (cell : Option α) (whole : index.whole? = some (i : Int))
      (inside : i < s.size) : Effect s (.set index cell) (.ok .done) (s.put i cell)
  | removed {index : Datum} {i : Nat} (whole : index.whole? = some (i : Int))
      (inside : i < s.size) : Effect s (.remove index) (.ok (.former (s.find? i))) (s.put i none)
  | got (index : Datum) (a : α) : Effect s (.get index) (.ok (.content a)) s
  | alive (n : Int) : Effect s (.isLive n) (.ok (.live (s.isLive n))) s
  | listed : Effect s .items (.ok (.listing s.items)) s
  | failed (c : Call α) (e : Error) : Effect s c (.error e) s

theorem effect (c : Call α) (s : Slots α) : Effect s c (c.outcome s) (c.next s) := by
  unfold Call.outcome Call.next
  cases c with
  | append cell =>
    rw [after_append]
    exact .appended cell
  | set index cell =>
    rw [after_set]
    cases found : locate index s.size with
    | error e => exact .failed _ e
    | ok i => exact .stored cell (whole_of_locate found).1 (whole_of_locate found).2
  | remove index =>
    rw [after_remove]
    cases found : locate index s.size with
    | error e => exact .failed _ e
    | ok i => exact .removed (whole_of_locate found).1 (whole_of_locate found).2
  | get index =>
    rw [after_get]
    cases s.get index with
    | error e => exact .failed _ e
    | ok a => exact .got index a
  | isLive n => exact .alive n
  | items => exact .listed

namespace Effect

variable {c : Call α} {o : Except Error (Answer α)} {s t : Slots α}

theorem size_le (h : Effect s c o t) : s.size ≤ t.size := by
  cases h <;> simp

/-- A call that fails leaves everything as it was. -/
theorem same_of_error {e : Error} (h : Effect s c (.error e) t) : t = s := by
  cases h
  rfl

/-- A call leaves at each place what it stored there, or else what was there before. -/
theorem find?_eq (h : Effect s c o t) (i : Nat) :
    t.find? i = (written i (c, o)).getD (s.find? i) := by
  cases h with
  | appended cell =>
    rw [written, find?_push]
    split <;> rfl
  | stored cell whole inside | removed whole inside =>
    simp only [written, whole, Option.some_inj, Int.natCast_inj, find?_put inside]
    split <;> rfl
  | got | alive | listed => rfl
  | failed => rw [written_error, Option.getD_none]

/-- A call stores nothing at a place that it is not on. -/
theorem written_eq_none (h : Effect s c o t) {j : Nat} (other : c.subject? s ≠ some (j : Int)) :
    written j (c, o) = none := by
  cases h with
  | appended cell => exact if_neg fun here : s.size = j => other (here ▸ rfl)
  | stored | removed => exact if_neg other
  | got | alive | listed => rfl
  | failed => exact written_error c _ j

/-- A handle that a call is not on is one if it was before, and leads to what it led to. -/
theorem apart (h : Effect s c o t) {j : Nat} (other : c.subject? s ≠ some (j : Int)) :
    (j < t.size ↔ j < s.size) ∧ t.find? j = s.find? j := by
  refine ⟨?_, by rw [h.find?_eq, h.written_eq_none other, Option.getD_none]⟩
  cases h with
  | appended cell =>
    have ne : j ≠ s.size := fun here => other (here ▸ rfl)
    rw [size_push]
    omega
  | stored | removed => rw [size_put]
  | got | alive | listed | failed => rfl

end Effect

/-! ## Runs -/

/-- A handle leads to what the log tells. -/
theorem find?_serve (s : Slots α) (calls : List (Call α)) (i : Nat) :
    (s.serve calls).1.find? i = told s (s.serve calls).2 i := by
  induction calls generalizing s with
  | nil => rfl
  | cons c calls ih =>
    -- the rest of the run begins after the first call, so what that one stored is the oldest
    calc ((c.next s).serve calls).1.find? i
        = (lastWritten i ((c.next s).serve calls).2).getD ((c.next s).find? i) := ih _
      _ = (lastWritten i ((c.next s).serve calls).2).getD
            ((written i (c, c.outcome s)).getD (s.find? i)) := by rw [(effect c s).find?_eq i]
      _ = told s (s.serve (c :: calls)).2 i := Option.getD_or.symm

theorem size_le_serve (s : Slots α) (calls : List (Call α)) :
    s.size ≤ (s.serve calls).1.size := by
  induction calls generalizing s with
  | nil => rfl
  | cons c calls ih => exact (effect c s).size_le.trans (ih (c.next s))

/-- Slots `s` that calls have made of `start` keep to the log of these calls: whatever is called
next, the log says what the answer is, and what the call is not on stays as it was. -/
structure Stable (start : Slots α) (log : Log α) (s : Slots α) : Prop where
  /-- No slot was lost, and none will be. -/
  grows : start.size ≤ s.size ∧ ∀ c : Call α, s.size ≤ (c.next s).size
  /-- What is appended gets a place of its own behind all others. -/
  appends : ∀ cell : Option α, (Call.append cell).outcome s = .ok (.place s.size) ∧
    ((Call.append cell).next s).size = s.size + 1
  gets : ∀ (index : Datum) (n : Int), index.whole? = some n → (Call.get index).outcome s =
    if 0 ≤ n ∧ n < s.size then
      match told start log n.toNat with
      | some a => .ok (.content a)
      | none => .error (.vacant index)
    else .error (.outOfRange index s.size)
  sets : ∀ (index : Datum) (n : Int) (cell : Option α), index.whole? = some n →
    (Call.set index cell).outcome s =
      if 0 ≤ n ∧ n < s.size then .ok .done else .error (.outOfRange index s.size)
  removes : ∀ (index : Datum) (n : Int), index.whole? = some n → (Call.remove index).outcome s =
    if 0 ≤ n ∧ n < s.size then .ok (.former (told start log n.toNat))
    else .error (.outOfRange index s.size)
  /-- A call that fails changes nothing. -/
  keeps : ∀ (c : Call α) e, c.outcome s = .error e → c.next s = s
  /-- A call on one index affects no other. -/
  apart : ∀ (c : Call α) (j : Nat), c.subject? s ≠ some (j : Int) →
    (j < (c.next s).size ↔ j < s.size) ∧ (c.next s).find? j = s.find? j
  /-- An index is live if it leads to a content. -/
  lives : ∀ n, (Call.isLive n).outcome s =
    .ok (.live (decide (0 ≤ n) && (told start log n.toNat).isSome))
  /-- The live slots are listed in ascending order, each with its index. -/
  lists : ∃ entries, Call.items.outcome s = .ok (.listing entries) ∧
    entries.Pairwise (fun e f => e.1 < f.1) ∧
    ∀ i a, (i, a) ∈ entries ↔ told start log i = some a

/-- Handles are stable, whatever slots there were at the start and whatever was called since. -/
theorem serve_stable (start : Slots α) (calls : List (Call α)) :
    Stable start (start.serve calls).2 (start.serve calls).1 where
  grows := ⟨size_le_serve start calls, fun c => (effect c _).size_le⟩
  appends cell := by
    rw [Call.outcome, Call.next, after_append]
    exact ⟨rfl, size_push _ cell⟩
  gets index n whole := by rw [outcome_get whole, find?_serve]
  sets index n cell whole := outcome_set whole cell _
  removes index n whole := by rw [outcome_remove whole, find?_serve]
  keeps c e failed := by
    have effect := effect c (start.serve calls).1
    rw [failed] at effect
    exact effect.same_of_error
  apart c j other := (effect c _).apart other
  lives n := by
    rw [← find?_serve]
    rfl
  lists := ⟨_, rfl, items_sorted _, fun i a => by rw [mem_items, find?_serve]⟩

/-- Of two slots, the first is emptied and the second, which began empty, is filled; an appended one
is emptied and filled again. Some calls fail: they are out of range, or their index is no number. -/
def busy : List (Call String) :=
  [.append (some "elm"), .remove (.int 0), .set (.int (-1)) (some "oak"), .remove (.int 2),
    .set (.int 3) (some "oak"), .get (.int 0), .set (.bool true) (some "oak"), .remove (.text "1"),
    .set (.int 2) (some "fir"), .append (some "yew"), .items]

theorem serve_stable_busy :
    let grown := ((⟨[some "ash", none]⟩ : Slots String).serve busy).1
    (Call.get (.int 0)).outcome grown = .error (.vacant (.int 0)) ∧
      (Call.get (.int 1)).outcome grown = .ok (.content "oak") ∧
      (Call.get (.int 2)).outcome grown = .ok (.content "fir") ∧
      (Call.get (.int (-1))).outcome grown = .error (.outOfRange (.int (-1)) 4) ∧
      (Call.append none).outcome grown = .ok (.place 4) :=
  have stable := serve_stable ⟨[some "ash", none]⟩ busy
  ⟨stable.gets (.int 0) 0 rfl, stable.gets (.int 1) 1 rfl, stable.gets (.int 2) 2 rfl,
    stable.gets (.int (-1)) (-1) rfl, (stable.appends none).1⟩

end Neogrammar.Slots
