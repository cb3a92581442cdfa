import Neogrammar.Markup

/-!
# Markup token by token

A text with markup that is well formed consists of tokens: signs, which are plain characters and
names in braces, and commands, each a mark on a sign. Names are replaced in the whole text before
commands are, but what a name is replaced by is plain. So the text stands for what its tokens stand
for one after another.
-/
namespace Neogrammar.Markup

/-- A character that is no part of any markup by itself. -/
def IsPlain (c : Char) : Prop := c ≠ '\x7b' ∧ c ≠ '\x7d' ∧ c ≠ '\\'

instance (c : Char) : Decidable (IsPlain c) :=
  inferInstanceAs (Decidable (c ≠ '\x7b' ∧ c ≠ '\x7d' ∧ c ≠ '\\'))

abbrev PlainChar := { c : Char // IsPlain c }

/-- What may stand in braces: letters, numerals and low lines, and at least one of them. -/
structure Name where
  letters : List Char
  filled : letters ≠ []
  words : ∀ c ∈ letters, Text.isWordPart c.toNat = true

inductive Sign where
  | plain (c : PlainChar)
  | name (n : Name)

inductive Token where
  | sign (s : Sign)
  | command (mark : PlainChar) (base : Sign)

/-- How a sign is entered. -/
def Sign.text : Sign → List Char
  | plain c => [c]
  | name n => '\x7b' :: n.letters ++ ['\x7d']

/-- What a sign stands for: the character, the letter of the name, or a name that has none. -/
def Sign.value : Sign → List Char
  | plain c => [c]
  | name n => nameValue n.letters

/-- How a token is entered. -/
def Token.text : Token → List Char
  | sign s => s.text
  | command mark base => '\\' :: mark :: base.text

/-- A mark put on the first character of some text, or before the text if there is no such mark. -/
def marked (mark : Char) : List Char → List Char
  | [] => [mark]
  | c :: rest =>
    match mark? mark with
    | some m => Text.compose [c, m] ++ rest
    | none => mark :: c :: rest

/-- What a token stands for. -/
def Token.value : Token → List Char
  | sign s => s.value
  | command mark base => marked mark base.value

variable {s rest name : List Char} {c : Char}

/-! ## Names -/

/-- A token when its names have been replaced. -/
def Token.named : Token → List Char
  | sign s => s.value
  | command mark base => '\\' :: mark :: base.value

theorem readNames_plain (h : c ≠ '\x7b') :
    readNames none (c :: rest) = c :: readNames none rest := by
  rw [readNames, if_neg h]

theorem ne_of_isWordPart {e : Char} (h : Text.isWordPart c.toNat = true)
    (he : Text.isWordPart e.toNat = false) : c ≠ e := by
  rintro rfl
  rw [h] at he
  cases he

/-- The letters of a name are gathered up to its closing brace. -/
theorem readNames_letters {letters : List Char}
    (words : ∀ c ∈ letters, Text.isWordPart c.toNat = true) (filled : name ++ letters ≠ []) :
    readNames (some name) (letters ++ '\x7d' :: rest) =
      nameValue (name ++ letters) ++ readNames none rest := by
  induction letters generalizing name with
  | nil =>
    rw [List.append_nil] at filled ⊢
    rw [List.nil_append, readNames, if_pos ⟨rfl, filled⟩]
  | cons c letters ih =>
    obtain ⟨hc, hl⟩ := List.forall_mem_cons.mp words
    have other : ¬(c = '\x7d' ∧ name ≠ []) := fun h => ne_of_isWordPart hc rfl h.1
    rw [List.cons_append, readNames, if_neg other, if_pos hc, ih hl (by simp), List.append_assoc,
      List.singleton_append]

theorem readNames_sign (s : Sign) :
    readNames none (s.text ++ rest) = s.value ++ readNames none rest := by
  cases s with
  | plain c => exact readNames_plain c.2.1
  | name n =>
    have opened : readNames none (Sign.text (.name n) ++ rest) =
        readNames (some []) (n.letters ++ '\x7d' :: rest) := by
      simp [Sign.text, readNames]
    rw [opened, readNames_letters n.words (by simpa using n.filled)]
    rfl

theorem readNames_token (t : Token) :
    readNames none (t.text ++ rest) = t.named ++ readNames none rest := by
  cases t with
  | sign s => exact readNames_sign s
  | command mark base =>
    rw [Token.text, List.cons_append, List.cons_append, readNames_plain (by decide),
      readNames_plain mark.2.1, readNames_sign]
    rfl

/-! ## Commands -/

theorem letter?_ne_backslash {s : String} (h : letter? s = some c) : c ≠ '\\' := by
  unfold letter? at h
  split at h <;> cases h <;> decide

/-- No name stands for a backslash. -/
theorem Sign.bare (s : Sign) : '\\' ∉ s.value := by
  cases s with
  | plain c => simpa [Sign.value, eq_comm] using c.2.2.2
  | name n =>
    rw [Sign.value, nameValue]
    split
    · rename_i c h
      simpa [eq_comm] using letter?_ne_backslash h
    · exact fun h => ne_of_isWordPart (n.words _ h) rfl rfl

theorem Sign.value_ne_nil (s : Sign) : s.value ≠ [] := by
  cases s with
  | plain c => simp [Sign.value]
  | name n =>
    rw [Sign.value, nameValue]
    split
    · simp
    · exact n.filled

theorem readCommands_bare (bare : '\\' ∉ s) :
    readCommands (s ++ rest) = s ++ readCommands rest := by
  induction s with
  | nil => rfl
  | cons c s ih =>
    rw [List.mem_cons, not_or] at bare
    rw [List.cons_append, readCommands, ih bare.2, List.cons_append]
    rintro _ _ _ rfl
    exact absurd rfl bare.1

theorem readCommands_command {mark : Char} (bare : '\\' ∉ c :: s) :
    readCommands ('\\' :: mark :: c :: s ++ rest) = marked mark (c :: s) ++ readCommands rest := by
  have later : '\\' ∉ s := fun h => bare (List.mem_cons_of_mem c h)
  rw [List.cons_append, List.cons_append, List.cons_append, readCommands, readCommands_bare later,
    marked, commandValue]
  cases mark? mark <;> simp

theorem readCommands_token (t : Token) :
    readCommands (t.named ++ rest) = t.value ++ readCommands rest := by
  cases t with
  | sign s => exact readCommands_bare s.bare
  | command mark base =>
    have bare := base.bare
    rw [Token.named, Token.value]
    obtain ⟨c, s, value⟩ := List.exists_cons_of_ne_nil base.value_ne_nil
    rw [value] at bare ⊢
    exact readCommands_command bare

/-! ## Texts of tokens -/

theorem readNames_tokens (ts : List Token) :
    readNames none (ts.flatMap Token.text) = ts.flatMap Token.named := by
  induction ts with
  | nil => rfl
  | cons t ts ih => rw [List.flatMap_cons, readNames_token, ih, List.flatMap_cons]

theorem readCommands_tokens (ts : List Token) :
    readCommands (ts.flatMap Token.named) = ts.flatMap Token.value := by
  induction ts with
  | nil => rfl
  | cons t ts ih => rw [List.flatMap_cons, readCommands_token, ih, List.flatMap_cons]

/-- Plain characters are tokens that stand for themselves. -/
theorem exists_plain_tokens (plain : ∀ c ∈ s, IsPlain c) :
    ∃ ts : List Token, ts.flatMap Token.text = s ∧ ts.flatMap Token.value = s := by
  induction s with
  | nil => exact ⟨[], rfl, rfl⟩
  | cons c s ih =>
    obtain ⟨hc, hs⟩ := List.forall_mem_cons.mp plain
    obtain ⟨ts, text, value⟩ := ih hs
    exact ⟨.sign (.plain ⟨c, hc⟩) :: ts, congrArg (c :: ·) text, congrArg (c :: ·) value⟩

/-- A text of tokens stands for what they stand for one after another. A text of plain characters
stands for itself. -/
theorem interpret_tokens :
    (∀ ts : List Token, interpret (String.ofList (ts.flatMap Token.text)) =
      String.ofList (ts.flatMap Token.value)) ∧
    ∀ s : String, (∀ c ∈ s.toList, IsPlain c) → interpret s = s := by
  have tokens (ts : List Token) : interpret (String.ofList (ts.flatMap Token.text)) =
      String.ofList (ts.flatMap Token.value) := by
    rw [interpret, String.toList_ofList, readNames_tokens, readCommands_tokens]
  refine ⟨tokens, fun s plain => ?_⟩
  obtain ⟨ts, text, value⟩ := exists_plain_tokens plain
  have whole := tokens ts
  rwa [text, value, String.ofList_toList] at whole

/-- A name and a command that there are none of, and a text without markup. -/
theorem interpret_tokens_unknown :
    interpret "\x7bzz\x7d\\qx" = "zzqx" ∧ (∀ c ∈ "kato".toList, IsPlain c) ∧
      interpret "kato" = "kato" := by
  have plain : ∀ c ∈ "kato".toList, IsPlain c := by simp [IsPlain]
  have words : ∀ c ∈ ['z', 'z'], Text.isWordPart c.toNat = true := by
    rw [List.forall_mem_cons, List.forall_mem_singleton]
    decide
  have unknown := interpret_tokens.1 [.sign (.name ⟨['z', 'z'], by decide, words⟩),
    .command ⟨'q', by decide⟩ (.plain ⟨'x', by decide⟩)]
  exact ⟨unknown, plain, interpret_tokens.2 "kato" plain⟩

end Neogrammar.Markup
