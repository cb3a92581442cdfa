import Neogrammar.Proofs.Yaml.Faulty
import Neogrammar.Request.Basic

/-!
# Requests from texts

Every text is read as a request or refused with an error that says what is wrong with the request,
but for two kinds of text: those with a character that no text may hold, and those with a number or
a scalar that is faulty in notation that is in order.
-/
namespace Neogrammar.Request

/-- An error of the request itself. -/
def ReadError.isReported : ReadError → Bool
  | .fault _ => false
  | _ => true

theorem reported_changeOfData (language : Datum) (index : Nat) (line : Option Nat) (d : Datum) :
    FailsOnly (·.isReported) (changeOfData language index line d) := by
  unfold changeOfData
  split
  · split
    · exact .error rfl
    · split
      · exact .error rfl
      · split
        · exact .ok _
        · exact .error rfl
  · exact .error rfl

theorem reported_changesOfData (language : Datum) (index : Nat) (lines : List Nat)
    (items : List Datum) :
    FailsOnly (·.isReported) (changesOfData language index lines items) := by
  induction items generalizing index lines with
  | nil => exact .ok _
  | cons d rest ih =>
    exact (reported_changeOfData language index _ d).bind fun _ _ =>
      (ih _ _).bind fun _ _ => .ok _

/-- Data is a request or is refused for what it lacks. -/
theorem reported_ofData (lines : List Nat) (d : Datum) :
    FailsOnly (·.isReported) (ofData lines d) := by
  unfold ofData
  split
  · exact .error rfl
  · dsimp only
    split
    · exact .error rfl
    · split
      · split
        · exact .error rfl
        · exact .error rfl
        · exact (reported_changesOfData _ _ _ _).bind fun _ _ => .ok _
        · exact .error rfl
      · exact .error rfl
  · exact .error rfl

/-- How an error of a text is justified: it is reported, or its cause stands in the text. -/
def ReadError.Justified (text : String) : ReadError → Prop
  | .fault f => Yaml.Escapes text f
  | _ => True

theorem ReadError.justified {text : String} {e : ReadError} (h : e.isReported = true) :
    e.Justified text := by
  cases e with
  | fault f => cases h
  | _ => trivial

theorem justified_ofText {text : String} (allowed : text.toList.all Yaml.isAllowed = true) :
    FailsOnly (ReadError.Justified text) (ofText text) := by
  have escapes {f : Yaml.Fault} (h : Yaml.IsMalformed f ∨ Yaml.Escapes text f)
      (other : ∀ line, f ≠ .malformed line) : Yaml.Escapes text f :=
    h.resolve_left fun ⟨line, hf⟩ => other line hf
  have document := Yaml.nodeOf?_escapes allowed
  unfold ofText
  split
  · exact .error trivial
  · rename_i f other hf
    exact .error (escapes (document f hf) other)
  · exact .error trivial
  · rename_i n hn
    have value := Yaml.value_escapes hn
    split
    · exact .error trivial
    · rename_i f other hf
      exact .error (escapes (value f hf) other)
    · exact (reported_ofData _ _).mono fun _ => ReadError.justified

/-- A text with a character that is not allowed is refused for that and not as a request. Any other
text is read, or refused as a request, or fails for a number or scalar that stands in it. -/
theorem ofText_outcome (text : String) :
    if text.toList.all Yaml.isAllowed then
      (∃ r, ofText text = .ok r) ∨ (∃ e, ofText text = .error e ∧ e.isReported) ∨
        ∃ f, ofText text = .error (.fault f) ∧ Yaml.Escapes text f
    else ofText text = .error (.fault .unprintable) := by
  split
  · rename_i allowed
    have justified := justified_ofText allowed
    cases h : ofText text with
    | ok r => exact .inl ⟨r, rfl⟩
    | error e =>
      have cause := justified e h
      cases e with
      | fault f => exact .inr (.inr ⟨f, rfl, cause⟩)
      | _ => exact .inr (.inl ⟨_, rfl, rfl⟩)
  · rename_i refused
    rw [ofText, Yaml.nodeOf?_unprintable (by simpa using refused)]

/-- A day of a thirteenth month is in order as notation, but it is no value. -/
theorem ofText_thirteenth : ¬FailsOnly (·.isReported) (ofText "changes: 2001-13-01") := by
  decide +kernel

end Neogrammar.Request
