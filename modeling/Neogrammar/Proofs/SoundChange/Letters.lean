import Neogrammar.Proofs.Pattern.Reading
import Neogrammar.SoundChange.Categories

/-!
# Categories of letters

Where every grapheme of a table is one character, a sign stands for a character, or for those of
its category: any of them in a pattern, and one of them at each place of a paired rule.
-/
namespace Neogrammar.Categories

open Pattern

variable {t : Categories} {sign : Char} {ls : List Char}

/-- No category is without graphemes. -/
def Filled (t : Categories) : Prop := ∀ e ∈ t.entries, e.2 ≠ []

/-- Every grapheme is a text of one character. -/
def Lettered (t : Categories) : Prop := ∀ e ∈ t.entries, ∀ g ∈ e.2, (keyOf? g).isSome = true

instance : Decidable t.Filled := inferInstanceAs (Decidable (∀ e ∈ t.entries, e.2 ≠ []))

instance : Decidable t.Lettered :=
  inferInstanceAs (Decidable (∀ e ∈ t.entries, ∀ g ∈ e.2, (keyOf? g).isSome = true))

theorem filled_empty : Filled .empty := by simp [Filled, empty]

theorem mem_putEntry {key : Char} {graphemes : List Datum} {entries : List (Char × List Datum)}
    {e : Char × List Datum} (h : e ∈ putEntry key graphemes entries) :
    e = (key, graphemes) ∨ e ∈ entries := by
  induction entries with
  | nil => simpa [putEntry] using h
  | cons first entries ih =>
    obtain ⟨k, old⟩ := first
    by_cases hk : k = key
    · rw [putEntry, if_pos hk, hk, List.mem_cons] at h
      rcases h with h | h
      · exact .inl h
      · exact .inr (by simp [h])
    · rw [putEntry, if_neg hk, List.mem_cons] at h
      rcases h with h | h
      · exact .inr (by simp [h])
      · rcases ih h with h | h
        · exact .inl h
        · exact .inr (by simp [h])

theorem add_eq_ok {u : Categories} {key content : Datum} (h : t.add key content = .ok u) :
    ∃ c graphemes, keyOf? key = some c ∧ content.elements? = some graphemes ∧ graphemes ≠ []
      ∧ u = ⟨putEntry c graphemes t.entries⟩ := by
  unfold Categories.add at h
  split at h
  · cases h
  split at h
  · cases h
  split at h
  · cases h
  rename_i graphemes elements
  split at h
  · cases h
  rename_i accepted
  split at h
  · cases h
  rename_i c hc
  cases h
  refine ⟨c, graphemes, hc, elements, ?_, rfl⟩
  rintro rfl
  exact accepted (by simp)

/-- Adding a category leaves none without graphemes. -/
theorem Filled.add {u : Categories} {key content : Datum} (filled : t.Filled)
    (h : t.add key content = .ok u) : u.Filled := by
  obtain ⟨c, graphemes, -, -, nonempty, rfl⟩ := add_eq_ok h
  intro e he
  rcases mem_putEntry he with rfl | he
  · exact nonempty
  · exact filled e he

/-- Taking a category out leaves none without graphemes. -/
theorem Filled.remove {u : Categories} {key : Datum} {graphemes : List Datum} (filled : t.Filled)
    (h : t.remove key = .ok (graphemes, u)) : u.Filled := by
  unfold Categories.remove at h
  split at h
  · cases h
  split at h
  · cases h
  split at h
  · cases h
  cases h
  intro e he
  exact filled e (List.mem_of_mem_filter he)

/-- No table that was read has a category without graphemes. -/
theorem Filled.ofEntries {u : Categories} {entries : List (Datum × Datum)} (filled : t.Filled)
    (h : ofEntries entries t = .ok u) : u.Filled := by
  induction entries generalizing t with
  | nil =>
    cases h
    exact filled
  | cons entry entries ih =>
    obtain ⟨key, content⟩ := entry
    obtain ⟨v, added, rest⟩ := bind_eq_ok_iff.mp h
    exact ih (filled.add added) rest

theorem mem_of_find? {graphemes : List Datum} (h : t.find? sign = some graphemes) :
    (sign, graphemes) ∈ t.entries := by
  obtain ⟨before, after, he, -⟩ := List.lookup_eq_some_iff.mp h
  simp [he]

/-- The letters of a category. -/
def letters (t : Categories) (sign : Char) : Option (List Char) :=
  (t.find? sign).map (·.filterMap keyOf?)

theorem letters_eq_none_iff : t.letters sign = none ↔ t.find? sign = none := by simp [letters]

theorem has_eq_letters (t : Categories) (sign : Char) : t.has sign = (t.letters sign).isSome := by
  simp [has, letters]

theorem eq_of_keyOf? {g : Datum} {c : Char} (h : keyOf? g = some c) :
    g = .text (String.ofList [c]) := by
  unfold keyOf? at h
  split at h
  · rename_i s
    split at h
    · rename_i d hd
      cases h
      rw [← hd, String.ofList_toList]
    · cases h
  · cases h

theorem eq_map_of_keys {graphemes : List Datum}
    (single : ∀ g ∈ graphemes, (keyOf? g).isSome = true) :
    graphemes = (graphemes.filterMap keyOf?).map fun c => .text (String.ofList [c]) := by
  induction graphemes with
  | nil => rfl
  | cons g graphemes ih =>
    obtain ⟨c, hc⟩ := Option.isSome_iff_exists.mp (single g (by simp))
    have tail := ih fun g hg => single g (by simp [hg])
    rw [List.filterMap_cons_some hc, List.map_cons, ← tail, ← eq_of_keyOf? hc]

/-- The graphemes of a category are the texts of its letters. -/
theorem find?_eq_letters (lettered : t.Lettered) (h : t.letters sign = some ls) :
    t.find? sign = some (ls.map fun c => .text (String.ofList [c])) := by
  obtain ⟨graphemes, found, rfl⟩ := Option.map_eq_some_iff.mp h
  rw [found, ← eq_map_of_keys (lettered _ (mem_of_find? found))]

theorem letters_ne_nil (filled : t.Filled) (lettered : t.Lettered) (h : t.letters sign = some ls) :
    ls ≠ [] := by
  have found := find?_eq_letters lettered h
  have nonempty := filled _ (mem_of_find? found)
  simpa using nonempty

/-- Whether a sign stands for a character: a category stands for each of its letters. -/
def admits (t : Categories) (sign x : Char) : Bool :=
  match t.letters sign with
  | none => x == sign
  | some ls => ls.contains x

/-- Whether a sign stands for a character at one place of a paired rule. -/
def admitsAt (t : Categories) (i : Nat) (sign x : Char) : Bool :=
  match t.letters sign with
  | none => x == sign
  | some ls => ls[i]? == some x

/-- What a sign of a replacement puts at one place of a paired rule. -/
def letterAt (t : Categories) (i : Nat) (sign : Char) : List Char :=
  match t.letters sign with
  | none => [sign]
  | some ls => ls[i]?.toList

/-- The pattern of a sign. -/
def pattern (t : Categories) (sign : Char) : List Char :=
  match t.letters sign with
  | none => [sign]
  | some ls => '[' :: (escape ls ++ [']'])

/-- The pattern of a sign at one place of a paired rule. -/
def patternAt (t : Categories) (i : Nat) (sign : Char) : List Char :=
  match t.letters sign with
  | none => [sign]
  | some ls => escape ls[i]?.toList

def test (t : Categories) (sign : Char) : CharTest :=
  match t.letters sign with
  | none => exactly sign
  | some ls => oneOf ls

def testAt (t : Categories) (i : Nat) (sign : Char) : CharTest :=
  match t.letters sign with
  | none => exactly sign
  | some ls =>
    match ls[i]? with
    | some c => exactly c
    | none => oneOf []

theorem holds_test (t : Categories) (sign : Char) : (t.test sign).holds = t.admits sign := by
  funext x
  rw [test, admits]
  cases t.letters sign <;> simp

theorem holds_testAt (t : Categories) (i : Nat) (sign : Char) :
    (t.testAt i sign).holds = t.admitsAt i sign := by
  funext x
  rw [testAt, admitsAt]
  cases t.letters sign with
  | none => simp
  | some ls =>
    simp only
    cases ls[i]? with
    | none => simp
    | some c => rw [holds_exactly, Option.some_beq_some, Bool.beq_comm]

theorem readsAs_pattern (filled : t.Filled) (lettered : t.Lettered)
    (h : t.has sign = true ∨ isOperator sign = false) :
    ReadsAs (t.pattern sign) (t.test sign) := by
  rw [has_eq_letters] at h
  rw [pattern, test]
  cases hl : t.letters sign with
  | none => exact readsAs_plain (by simpa [hl] using h)
  | some ls => exact readsAs_set (letters_ne_nil filled lettered hl)

/-- A category has a letter at a place. -/
def HasPlace (t : Categories) (i : Nat) (sign : Char) : Prop :=
  ∀ ls, t.letters sign = some ls → i < ls.length

instance (t : Categories) (i : Nat) (sign : Char) : Decidable (t.HasPlace i sign) :=
  decidable_of_iff ((t.letters sign).all fun ls => decide (i < ls.length)) (by
    cases h : t.letters sign <;> simp [HasPlace, h])

theorem readsAs_patternAt {i : Nat} (place : t.HasPlace i sign)
    (h : t.has sign = true ∨ isOperator sign = false) :
    ReadsAs (t.patternAt i sign) (t.testAt i sign) := by
  rw [has_eq_letters] at h
  rw [patternAt, testAt]
  cases hl : t.letters sign with
  | none => exact readsAs_plain (by simpa [hl] using h)
  | some ls =>
    simp only [List.getElem?_eq_getElem (place ls hl), Option.toList_some]
    exact readsAs_escape _

theorem classOf_letters (ls : List Char) :
    classOf (ls.map fun c => .text (String.ofList [c])) = .ok ('[' :: (escape ls ++ [']'])) := by
  have texts : texts? (ls.map fun c => .text (String.ofList [c])) = some (ls.map fun c => [c]) := by
    induction ls with
    | nil => rfl
    | cons c ls ih =>
      rw [texts?] at ih ⊢
      rw [List.map_cons, List.mapM_cons, ih]
      simp [Datum.text?]
  have members : (ls.map fun c => [c]).flatMap escape = escape ls := by
    rw [List.flatMap_map]
    simp [escape]
  rw [classOf, texts]
  simp [anyOf, members]

theorem expandSign_letters (lettered : t.Lettered) :
    t.expandSign (.char sign) = .ok (t.pattern sign) := by
  rw [expandSign, pattern]
  cases hl : t.letters sign with
  | none => rw [letters_eq_none_iff.mp hl]
  | some ls =>
    rw [find?_eq_letters lettered hl]
    exact classOf_letters ls

/-- A text is expanded sign by sign. -/
theorem expand_of_signs {s : String} {part : Char → List Char}
    (h : ∀ c ∈ s.toList, t.expandSign (.char c) = .ok (part c)) :
    t.expand (.text s) = .ok (s.toList.map part).flatten := by
  have signs : ∀ cs : List Char, (∀ c ∈ cs, t.expandSign (.char c) = .ok (part c)) →
      t.expandSigns (cs.map .char) = .ok (cs.map part).flatten := by
    intro cs
    induction cs with
    | nil => exact fun _ => rfl
    | cons c cs ih =>
      intro h
      rw [List.forall_mem_cons] at h
      simp only [List.map_cons, expandSigns, h.1, ih h.2, ok_bind, pure_eq_ok, List.flatten_cons]
  rw [expand, Sign.ofDatum_text, ok_bind, signs s.toList h]

theorem expand_text (lettered : t.Lettered) (s : String) :
    t.expand (.text s) = .ok (s.toList.map t.pattern).flatten :=
  expand_of_signs fun _ _ => expandSign_letters lettered

theorem joinTexts_texts (parts : List (List Char)) :
    joinTexts (parts.map fun s => .text (String.ofList s)) = .ok parts.flatten := by
  induction parts with
  | nil => rfl
  | cons s parts ih =>
    simp only [List.map_cons, joinTexts, ih, ok_bind, pure_eq_ok, String.toList_ofList,
      List.flatten_cons]

theorem atIndex?_natCast (items : List Datum) (i : Nat) : atIndex? items i = items[i]? := by
  rw [atIndex?, if_neg (by omega), Int.toNat_natCast]

theorem resolveSign_letters {i : Nat} (lettered : t.Lettered) (place : t.HasPlace i sign) :
    t.resolveSign i true (.char sign) = .ok (.text (String.ofList (t.patternAt i sign)))
      ∧ t.resolveSign i false (.char sign) = .ok (.text (String.ofList (t.letterAt i sign))) := by
  simp only [resolveSign, patternAt, letterAt]
  cases hl : t.letters sign with
  | none =>
    rw [letters_eq_none_iff.mp hl]
    exact ⟨rfl, rfl⟩
  | some ls =>
    rw [find?_eq_letters lettered hl]
    simp [atIndex?_natCast, List.getElem?_eq_getElem (place ls hl)]

/-- A text is resolved sign by sign. -/
theorem resolve_of_signs {i : Nat} {asPattern : Bool} {s : String} {part : Char → List Char}
    (h : ∀ c ∈ s.toList, t.resolveSign i asPattern (.char c)
      = .ok (.text (String.ofList (part c)))) :
    t.resolve (.text s) i asPattern = .ok (s.toList.map part).flatten := by
  have resolved : (s.toList.map Sign.char).mapM (t.resolveSign i asPattern)
      = .ok ((s.toList.map part).map fun cs => .text (String.ofList cs)) := by
    rw [List.mapM_map, List.map_map]
    exact mapM_eq_ok h
  rw [resolve, Sign.ofDatum_text, ok_bind, resolved, ok_bind, joinTexts_texts]

theorem resolve_text {i : Nat} (lettered : t.Lettered) {s : String}
    (place : ∀ sign ∈ s.toList, t.HasPlace i sign) :
    t.resolve (.text s) i true = .ok (s.toList.map (t.patternAt i)).flatten
      ∧ t.resolve (.text s) i false = .ok (s.toList.flatMap (t.letterAt i)) := by
  rw [List.flatMap_def]
  exact ⟨resolve_of_signs fun sign hs => (resolveSign_letters lettered (place sign hs)).1,
    resolve_of_signs fun sign hs => (resolveSign_letters lettered (place sign hs)).2⟩

theorem referenced_text (t : Categories) (s : String) :
    t.referenced (.text s) = .ok (t.mentioned [] (s.toList.map .char)) := rfl

theorem mem_mentioned {seen cs : List Char} :
    sign ∈ t.mentioned seen (cs.map .char) ↔ sign ∈ seen ∨ sign ∈ cs ∧ t.has sign = true := by
  induction cs generalizing seen with
  | nil => simp [mentioned]
  | cons c cs ih =>
    rw [List.map_cons, mentioned]
    split
    · rename_i new
      simp only [Bool.and_eq_true] at new
      rw [ih, List.mem_append, List.mem_singleton, List.mem_cons]
      constructor
      · rintro ((h | rfl) | h)
        · exact .inl h
        · exact .inr ⟨.inl rfl, new.1⟩
        · exact .inr ⟨.inr h.1, h.2⟩
      · rintro (h | ⟨rfl | h, key⟩)
        · exact .inl (.inl h)
        · exact .inl (.inr rfl)
        · exact .inr ⟨h, key⟩
    · rename_i old
      rw [ih, List.mem_cons]
      constructor
      · rintro (h | h)
        · exact .inl h
        · exact .inr ⟨.inr h.1, h.2⟩
      · rintro (h | ⟨rfl | h, key⟩)
        · exact .inl h
        · simp only [key, Bool.true_and, Bool.not_eq_true', Bool.not_eq_false,
            List.contains_eq_mem, decide_eq_true_eq] at old
          exact .inl old
        · exact .inr ⟨h, key⟩

/-- Whether a text mentions a category. -/
def mentionedIn (t : Categories) (cs : List Char) : Bool := cs.any t.has

theorem mentioned_eq_nil_iff {cs : List Char} :
    t.mentioned [] (cs.map .char) = [] ↔ t.mentionedIn cs = false := by
  rw [List.eq_nil_iff_forall_not_mem]
  simp [mem_mentioned, mentionedIn]

/-- Signs that are no categories put themselves. -/
theorem flatMap_letterAt {cs : List Char} (h : t.mentionedIn cs = false) (i : Nat) :
    cs.flatMap (t.letterAt i) = cs := by
  induction cs with
  | nil => rfl
  | cons c cs ih =>
    simp only [mentionedIn, List.any_cons, Bool.or_eq_false_iff] at h
    have none_here : t.letters c = none := by
      rw [← Option.not_isSome_iff_eq_none, ← has_eq_letters, h.1]
      decide
    rw [List.flatMap_cons, ih h.2, letterAt, none_here]
    rfl

end Neogrammar.Categories
