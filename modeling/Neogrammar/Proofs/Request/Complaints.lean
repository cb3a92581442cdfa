import Neogrammar.Proofs.Coordinate
import Neogrammar.Request.Check

/-!
# What a check says of each change

A check says of each change what is wrong with it by itself and, if nothing is, which of its
references lead nowhere, by the languages that are known before it.
-/
namespace Neogrammar

namespace Request

variable {known : Option (Project × Known)} {p : Project} {k : Known} {c : Change} {o : Operation}
  {index place : Nat} {changes : List Change} {result : CheckResult} {d : Datum}
  {fields : List String} {said : List Complaint}

/-! ## Change by change -/

/-- What is known after some changes. -/
def knownAfter (known : Option (Project × Known)) (changes : List Change) :
    Option (Project × Known) :=
  known.map fun q => (q.1, changes.foldl Known.after q.2)

@[simp] theorem knownAfter_nil (known : Option (Project × Known)) : knownAfter known [] = known := by
  cases known <;> rfl

theorem knownAfter_cons (known : Option (Project × Known)) (c : Change) (changes : List Change) :
    knownAfter known (c :: changes) =
      knownAfter (known.map fun q => (q.1, q.2.after c)) changes := by
  cases known <;> rfl

/-- A check that returns has looked at every change. -/
theorem complaints_of_checkFrom (h : checkFrom known index changes = .ok result)
    (hc : changes[place]? = some c) :
    ∃ errors warnings, complaints (knownAfter known (changes.take place)) c = .ok (errors, warnings) ∧
      ∀ e ∈ errors, (⟨index + place, c.operation, e.1, e.2, c.line⟩ : FieldError) ∈ result.errors := by
  induction changes generalizing known index place result with
  | nil => cases hc
  | cons first changes ih =>
    obtain ⟨⟨errors, warnings⟩, hf, h⟩ := bind_eq_ok_iff.mp h
    obtain ⟨more, hm, h⟩ := bind_eq_ok_iff.mp h
    cases h
    cases place with
    | zero =>
      cases hc
      refine ⟨errors, warnings, by simpa using hf, fun e he => ?_⟩
      exact List.mem_append_left _ (List.mem_map_of_mem he)
    | succ place =>
      obtain ⟨errors, warnings, hn, listed⟩ := ih hm (by simpa using hc)
      rw [List.take_succ_cons, knownAfter_cons]
      refine ⟨errors, warnings, hn, fun e he => List.mem_append_right _ ?_⟩
      have shift : index + (place + 1) = index + 1 + place := by omega
      rw [shift]
      exact listed e he

/-- Every error of a check is a complaint about the change at its index. -/
theorem placed_of_mem_errors (h : checkFrom known index changes = .ok result) {e : FieldError}
    (he : e ∈ result.errors) :
    ∃ place c errors warnings, changes[place]? = some c ∧
      complaints (knownAfter known (changes.take place)) c = .ok (errors, warnings) ∧
      (e.field, e.message) ∈ errors ∧ e.index = index + place := by
  induction changes generalizing known index result with
  | nil =>
    cases h
    cases he
  | cons c changes ih =>
    obtain ⟨⟨errors, warnings⟩, hc, h⟩ := bind_eq_ok_iff.mp h
    obtain ⟨more, hm, h⟩ := bind_eq_ok_iff.mp h
    cases h
    rcases List.mem_append.mp he with he | he
    · obtain ⟨x, hx, rfl⟩ := List.mem_map.mp he
      exact ⟨0, c, errors, warnings, rfl, by simpa using hc, hx, rfl⟩
    · obtain ⟨place, d, errors, warnings, hd, hcd, hx, there⟩ := ih hm he
      refine ⟨place + 1, d, errors, warnings, hd, ?_, hx, by omega⟩
      rw [List.take_succ_cons, knownAfter_cons]
      exact hcd

theorem of_mem_errors (h : checkFrom known index changes = .ok result) {e : FieldError}
    (he : e ∈ result.errors) :
    ∃ place c errors warnings, changes[place]? = some c ∧
      complaints (knownAfter known (changes.take place)) c = .ok (errors, warnings) ∧
      (e.field, e.message) ∈ errors := by
  obtain ⟨place, c, errors, warnings, hc, said, listed, -⟩ := placed_of_mem_errors h he
  exact ⟨place, c, errors, warnings, hc, said, listed⟩

/-- A check that fails does so at one change. -/
theorem of_checkFrom_error {e : Error} (h : checkFrom known index changes = .error e) :
    ∃ place c, changes[place]? = some c ∧
      complaints (knownAfter known (changes.take place)) c = .error e := by
  induction changes generalizing known index with
  | nil => cases h
  | cons c changes ih =>
    rcases bind_eq_error_iff.mp h with hc | ⟨said, -, h⟩
    · exact ⟨0, c, rfl, by simpa using hc⟩
    rcases bind_eq_error_iff.mp h with hm | ⟨more, -, h⟩
    · obtain ⟨place, d, hd, hcd⟩ := ih hm
      refine ⟨place + 1, d, hd, ?_⟩
      rw [List.take_succ_cons, knownAfter_cons]
      exact hcd
    · cases h

theorem check_of_validate {r : Request} {q : Option Project} {result : CheckResult}
    (h : r.validate q = .ok result) : r.check q = .ok result := by
  unfold validate at h
  split at h
  · exact h
  · cases h

/-! ## Kinds of fields -/

/-- The fields that hold references to languages. -/
def languageFields : List String := ["language", "ancestor"]

theorem fits_of_unlessNull {name what : String} {fits : Datum → Bool} {d : Datum}
    (h : unlessNull c name fits what = []) (hd : c.field? name = some d)
    (given : d.isNull = false) : fits d = true := by
  have value : c.fieldOrNull name = d := by simp [Change.fieldOrNull, hd]
  simp only [unlessNull, value, given, Bool.false_or] at h
  split at h
  · assumption
  · cases h

theorem fits_of_ifGiven {name what : String} {fits : Datum → Bool} {d : Datum}
    (h : ifGiven c name fits what = []) (hd : c.field? name = some d) : fits d = true := by
  simp only [ifGiven, hd] at h
  split at h
  · assumption
  · cases h

/-- What the fields of a change hold, where nothing is wrong with their kinds. -/
structure Fitting (c : Change) : Prop where
  languages : ∀ name ∈ languageFields, ∀ d, c.field? name = some d → d.isNull = false →
    isReference d = true
  index : ∀ d, c.field? "index" = some d → d.isNull = false → isIndex d = true
  pos : ∀ d, c.field? "pos" = some d → isReference d = true
  texts : ∀ name ∈ textFields, ∀ d, c.field? name = some d → d.isText = true

theorem fitting_of_kindComplaints (h : kindComplaints c = []) : Fitting c := by
  simp only [kindComplaints, List.append_eq_nil_iff, List.flatMap_eq_nil_iff] at h
  obtain ⟨⟨⟨⟨language, ancestor⟩, index⟩, pos⟩, texts⟩ := h
  constructor
  · intro name hn d hd given
    simp only [languageFields, List.mem_cons, List.not_mem_nil, or_false] at hn
    rcases hn with rfl | rfl
    · exact fits_of_unlessNull language hd given
    · exact fits_of_unlessNull ancestor hd given
  · exact fun d => fits_of_unlessNull index
  · exact fun d => fits_of_ifGiven pos
  · exact fun name hn d => fits_of_ifGiven (texts name hn)

/-! ## Fields and words of complaints -/

/-- A complaint about one of some fields, which does not begin as the report of a missing language
does. -/
structure Regards (fields : List String) (x : Complaint) : Prop where
  field : x.1 ∈ fields
  words : x.2.toList.head? ≠ some 'L'

/-- Complaints all of which are about some of the fields of a change. -/
def About (fields : List String) (complaints : List Complaint) : Prop :=
  ∀ x ∈ complaints, Regards fields x

theorem about_nil : About fields [] := by simp [About]

theorem about_single {field message : String} (h : field ∈ fields)
    (words : message.toList.head? ≠ some 'L') : About fields [(field, message)] := by
  intro x hx
  rw [List.mem_singleton.mp hx]
  exact ⟨h, words⟩

theorem About.append {left right : List Complaint} (hl : About fields left)
    (hr : About fields right) : About fields (left ++ right) := by
  unfold About
  rw [List.forall_mem_append]
  exact ⟨hl, hr⟩

theorem about_unlessNull {name what : String} {fits : Datum → Bool} (h : name ∈ fields) :
    About fields (unlessNull c name fits what) := by
  unfold unlessNull
  dsimp only
  split
  · exact about_nil
  · exact about_single h (by simp)

theorem about_ifGiven {name what : String} {fits : Datum → Bool} (h : name ∈ fields) :
    About fields (ifGiven c name fits what) := by
  unfold ifGiven
  split
  · exact about_nil
  · split
    · exact about_nil
    · exact about_single h (by simp)

/-- The fields that are looked at for every operation, and the pattern of a plain rule. -/
def sharedFields : List String :=
  ["language", "ancestor", "index", "pos", "ancestors"] ++ textFields

theorem about_kindComplaints (c : Change) : About sharedFields (kindComplaints c) := by
  unfold kindComplaints
  refine ((((about_unlessNull ?_).append (about_unlessNull ?_)).append
    (about_unlessNull ?_)).append (about_ifGiven ?_)).append ?_
  iterate 4 decide
  intro x hx
  obtain ⟨name, text, hx⟩ := List.mem_flatMap.mp hx
  exact about_ifGiven (List.mem_append_right _ text) x hx

theorem message_coordinate (text : String) : (Error.coordinate text).message =
    "Coordinate must look like 'lang:word': " ++ Text.quoted text := rfl

theorem about_coordinateComplaint (h : coordinateComplaint d = .ok said) :
    About sharedFields said := by
  have shared : "ancestors" ∈ sharedFields := by decide
  unfold coordinateComplaint at h
  split at h
  · split at h
    · cases h
      exact about_nil
    · rename_i e he
      obtain rfl := Coordinate.ofText_error he
      obtain rfl := Except.ok.inj h
      rw [message_coordinate]
      exact about_single shared (by simp)
  · dsimp only at h
    split at h
    · cases h
      exact about_nil
    · obtain ⟨shown, -, rfl⟩ := map_eq_ok_iff.mp h
      exact about_single shared (by simp)
  · obtain ⟨shown, -, rfl⟩ := map_eq_ok_iff.mp h
    exact about_single shared (by simp)

theorem about_ancestorComplaints (h : ancestorComplaints c = .ok said) :
    About sharedFields said := by
  unfold ancestorComplaints at h
  split at h
  · cases h
    exact about_nil
  · obtain ⟨each, hm, rfl⟩ := map_eq_ok_iff.mp h
    intro x hx
    obtain ⟨complaints, hc, hx⟩ := List.mem_flatten.mp hx
    exact mapM_all hm (P := About sharedFields) (fun _ _ => about_coordinateComplaint) complaints hc
      x hx
  · cases h
    exact about_single (by decide) (by decide)

theorem about_patternComplaints (h : patternComplaints o c = .ok said) :
    About sharedFields said := by
  unfold patternComplaints at h
  split at h
  · split at h
    · cases h
      exact about_nil
    · cases h
      exact about_single (by decide) (by simp)
    · cases h
  · cases h
    exact about_nil

theorem about_derivationComplaints (o : Operation) (c : Change) :
    About sharedFields (derivationComplaints o c) := by
  unfold derivationComplaints
  split
  · exact about_single (by decide) (by decide)
  · exact about_nil

theorem about_categoryComplaints (o : Operation) (c : Change) :
    About ["key", "content"] (categoryComplaints o c) := by
  have key : About ["key", "content"] (keyComplaints c) := by
    unfold keyComplaints
    split
    · exact about_nil
    · exact about_single (by decide) (by decide)
  have content : About ["key", "content"] (contentComplaints c) := by
    unfold contentComplaints
    split <;> split
    · exact about_single (by decide) (by decide)
    · exact about_nil
    · exact about_nil
    · exact about_single (by decide) (by decide)
  unfold categoryComplaints
  split
  · exact key.append content
  · exact key
  · exact about_nil

theorem about_environmentComplaints (o : Operation) (c : Change) :
    About ["environment"] (environmentComplaints o c) := by
  unfold environmentComplaints
  split
  · exact about_nil
  · split
    · split
      · exact about_nil
      · exact about_single (by decide) (by simp)
    · exact about_single (by decide) (by decide)

/-! ## One change -/

/-- A change with which nothing is wrong by itself. -/
structure Formed (o : Operation) (c : Change) : Prop where
  given : ∀ name ∈ o.required, (c.fieldOrNull name).isNull = false
  kinds : kindComplaints c = []
  categories : categoryComplaints o c = []
  ancestors : ancestorComplaints c = .ok []
  patterns : patternComplaints o c = .ok []
  environment : environmentComplaints o c = []
  derivation : derivationComplaints o c = []

theorem formed_of_formComplaints (h : formComplaints o c = .ok []) : Formed o c := by
  unfold formComplaints at h
  split at h
  · rename_i nothing
    obtain ⟨ancestors, ha, h⟩ := bind_eq_ok_iff.mp h
    obtain ⟨patterns, hp, h⟩ := bind_eq_ok_iff.mp h
    have none := Except.ok.inj h
    simp only [List.append_eq_nil_iff] at none
    obtain ⟨⟨⟨⟨⟨kinds, categories⟩, rfl⟩, rfl⟩, environment⟩, derivation⟩ := none
    refine ⟨fun name hn => ?_, kinds, categories, ha, hp, environment, derivation⟩
    simpa using List.filter_eq_nil_iff.mp (List.map_eq_nil_iff.mp nothing) name hn
  · rename_i missing
    exact absurd (Except.ok.inj h) missing

/-- Every reference to a language that a change holds leads to a known one. -/
def Known.HasAll (k : Known) (c : Change) : Prop :=
  ∀ name ∈ languageFields, ∀ d, c.field? name = some d → d.isNull = false → k.has d = true

theorem has_of_languageComplaint {name : String} {d : Datum}
    (h : languageComplaint k c name = .ok []) (hd : c.field? name = some d)
    (given : d.isNull = false) : k.has d = true := by
  have value : c.fieldOrNull name = d := by simp [Change.fieldOrNull, hd]
  simp only [languageComplaint, value, given, Bool.false_or] at h
  by_cases has : k.has d = true
  · exact has
  · rw [if_neg has] at h
    obtain ⟨_, -, h⟩ := map_eq_ok_iff.mp h
    cases h

/-- What an accepted change is like. -/
theorem accepted_of_complaints {warnings : List String}
    (h : complaints known c = .ok ([], warnings)) :
    ∃ o, Operation.ofName? c.operation = some o ∧ Formed o c ∧
      ∀ p k, known = some (p, k) → k.HasAll c := by
  unfold complaints at h
  split at h
  · cases h
  · rename_i o ho
    obtain ⟨form, hf, h⟩ := bind_eq_ok_iff.mp h
    have nothing : form = [] := by
      cases form with
      | nil => rfl
      | cons complaint form => cases h
    subst nothing
    refine ⟨o, ho, formed_of_formComplaints hf, ?_⟩
    rintro p k rfl
    obtain ⟨language, hl, h⟩ := bind_eq_ok_iff.mp h
    obtain ⟨ancestor, ha, h⟩ := bind_eq_ok_iff.mp h
    obtain ⟨_, -, h⟩ := bind_eq_ok_iff.mp h
    have none := congrArg Prod.fst (Except.ok.inj h)
    obtain ⟨rfl, rfl⟩ := List.append_eq_nil_iff.mp none
    intro name hn d hd given
    simp only [languageFields, List.mem_cons, List.not_mem_nil, or_false] at hn
    rcases hn with rfl | rfl
    · exact has_of_languageComplaint hl hd given
    · exact has_of_languageComplaint ha hd given

/-- A check without errors has accepted every change. -/
theorem accepted_of_checkFrom (h : checkFrom known index changes = .ok result)
    (hv : result.errors = []) (hc : changes[place]? = some c) :
    ∃ o, Operation.ofName? c.operation = some o ∧ Formed o c ∧
      ∀ p k, knownAfter known (changes.take place) = some (p, k) → k.HasAll c := by
  obtain ⟨errors, warnings, said, listed⟩ := complaints_of_checkFrom h hc
  have nothing : errors = [] := by
    cases errors with
    | nil => rfl
    | cons e errors =>
      have there := listed e List.mem_cons_self
      rw [hv] at there
      cases there
  exact accepted_of_complaints (nothing ▸ said)

end Request
end Neogrammar
