import Neogrammar.Proofs.Text.Numerals
import Neogrammar.Word

/-!
# Texts of coordinates

A coordinate has many texts: any numeral of its language and any of its word, with a colon between
them. These are exactly the texts that are read as it, and its own text is one of them if its
numbers are not too long.
-/
namespace Neogrammar.Coordinate

variable {s lang word : List Char} {c : Coordinate}

/-- Both numbers are short enough to be written. -/
def IsWritable (c : Coordinate) : Prop :=
  Text.isWritable c.lang = true ∧ Text.isWritable c.word = true

/-- The texts of a coordinate: numerals of its language and its word around the first colon. -/
inductive Written (c : Coordinate) : List Char → Prop
  | intro {lang word : List Char} (first : ':' ∉ lang) (ofLang : Text.Numeral lang c.lang)
      (ofWord : Text.Numeral word c.word) : Written c (lang ++ ':' :: word)

theorem splitColon_append (first : ':' ∉ lang) :
    splitColon (lang ++ ':' :: word) = some (lang, word) := by
  have before : ∀ c ∈ lang, (c != ':') = true := by
    intro c hc
    simpa using fun same : c = ':' => first (same ▸ hc)
  rw [splitColon, if_pos (by simp), List.takeWhile_append_of_pos before,
    List.dropWhile_append_of_pos before]
  simp

/-- Whatever is wrong with the text of a coordinate, the error shows the text. -/
theorem ofText_error {s : String} {e : Error} (h : ofText s = .error e) :
    e = .coordinate s := by
  unfold ofText at h
  split at h
  · cases h
    rfl
  · split at h
    · cases h
    · cases h
      rfl

/-- A text is read as a coordinate exactly if it is one of its texts. -/
theorem ofText_eq_ok_iff {s : String} : ofText s = .ok c ↔ c.Written s.toList := by
  by_cases colon : ':' ∈ s.toList
  · obtain ⟨lang, word, parts, first⟩ := List.eq_append_cons_of_mem colon
    rw [ofText, parts, splitColon_append first]
    dsimp only
    constructor
    · intro h
      split at h
      · cases h
        rename_i ofLang ofWord
        exact .intro first (Text.readInt_ofList.mp ofLang) (Text.readInt_ofList.mp ofWord)
      · cases h
    · generalize same : lang ++ ':' :: word = t
      rintro ⟨first', ofLang, ofWord⟩
      have split := congrArg splitColon same
      rw [splitColon_append first, splitColon_append first'] at split
      cases split
      rw [Text.readInt_ofList.mpr ofLang, Text.readInt_ofList.mpr ofWord]
  · constructor
    · intro h
      rw [ofText, splitColon, if_neg (by simpa using colon)] at h
      cases h
    · generalize s.toList = t at colon
      rintro ⟨-, -, -⟩
      exact absurd (by simp) colon

theorem Written.isWritable (h : c.Written s) : c.IsWritable := by
  obtain ⟨-, ofLang, ofWord⟩ := h
  exact ⟨ofLang.isWritable, ofWord.isWritable⟩

/-- No numeral has a colon. -/
theorem colon_not_mem {m : Int} (h : Text.Numeral s m) : ':' ∉ s := by
  intro colon
  have kinds := h.mem ':' colon
  revert kinds
  decide

/-- The text of a coordinate that can be written is one of its texts. -/
theorem written_text (h : c.IsWritable) : c.Written c.text.toList := by
  have ofLang := Text.numeral_intText h.1
  have ofWord := Text.numeral_intText h.2
  have text : c.text.toList =
      (Text.intText c.lang).toList ++ ':' :: (Text.intText c.word).toList := by
    simp [Coordinate.text]
  rw [text]
  exact .intro (colon_not_mem ofLang) ofLang ofWord

/-- A coordinate whose numbers are not too long is read back from its text. A text is read as a
coordinate that its own text leads back to if the parts around its first colon are numerals, and
refused otherwise. -/
theorem ofText_canonical :
    (∀ c : Coordinate, c.IsWritable → ofText c.text = .ok c) ∧
      ∀ s : String,
        (∃ c : Coordinate, ofText s = .ok c ∧ c.Written s.toList ∧ c.IsWritable ∧
          ofText c.text = .ok c) ∨
        (ofText s = .error (.coordinate s) ∧ ∀ c : Coordinate, ¬c.Written s.toList) := by
  have back (c : Coordinate) (h : c.IsWritable) : ofText c.text = .ok c :=
    ofText_eq_ok_iff.mpr (written_text h)
  refine ⟨back, fun s => ?_⟩
  cases h : ofText s with
  | ok c =>
    have written := ofText_eq_ok_iff.mp h
    exact .inl ⟨c, rfl, written, written.isWritable, back c written.isWritable⟩
  | error e =>
    obtain rfl := ofText_error h
    refine .inr ⟨rfl, fun c written => ?_⟩
    rw [ofText_eq_ok_iff.mpr written] at h
    cases h

theorem ofText_canonical_negative :
    (⟨-12, 3⟩ : Coordinate).IsWritable ∧ ofText "-12:3" = .ok ⟨-12, 3⟩ := by
  have short : (⟨-12, 3⟩ : Coordinate).IsWritable := ⟨rfl, rfl⟩
  have text : (⟨-12, 3⟩ : Coordinate).text = "-12:3" := by decide
  exact ⟨short, text ▸ ofText_canonical.1 ⟨-12, 3⟩ short⟩

end Neogrammar.Coordinate
