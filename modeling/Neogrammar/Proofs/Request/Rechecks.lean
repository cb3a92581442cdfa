import Neogrammar.Proofs.Project.Edits
import Neogrammar.Proofs.Request.Answered
import Neogrammar.Proofs.SoundChange.Compile

/-!
# Checks that are made again

The environment of a sound change, and the key and the content of a category, are looked at twice: a
check counts the markers and looks at each grapheme, and the engine later splits the environment and
steps through the content. What the check finds wrong with these fields is exactly what the engine
would refuse.
-/
namespace Neogrammar

/-! ## What the engine accepts -/

namespace SoundChange

/-- An environment has two sides exactly if it has one marker. -/
theorem sidesOf_returns_iff {environment : String} :
    (∃ sides, sidesOf environment = .ok sides) ↔ environment.toList.count marker = 1 := by
  cases h : sidesOf environment with
  | ok sides =>
    have one : environment.toList.count marker = 1 := by
      by_contra other
      rw [sidesOf_eq_error_iff.mpr ⟨other, rfl⟩] at h
      cases h
    simp [one]
  | error e => simp [(sidesOf_eq_error_iff.mp h).1]

end SoundChange

namespace Categories

/-- A category is added exactly if its key is one character and it has graphemes, none of them
empty. What the table holds has no part in it. -/
theorem add_returns_iff (t : Categories) {key : String} {content : Datum} {graphemes : List Datum}
    (elements : content.elements? = some graphemes) :
    (∃ u, t.add (.text key) content = .ok u) ↔
      key.length = 1 ∧ graphemes ≠ [] ∧ ∀ g ∈ graphemes, g.truthy = true := by
  unfold add
  simp only [Datum.size?, elements]
  by_cases one : key.length = 1
  · obtain ⟨c, hc⟩ := List.length_eq_one_iff.mp (key.length_toList.trans one)
    have filled : (graphemes.isEmpty || graphemes.any (!·.truthy)) = false ↔
        graphemes ≠ [] ∧ ∀ g ∈ graphemes, g.truthy = true := by simp
    simp only [keyOf?, hc, one, ← filled]
    cases graphemes.isEmpty || graphemes.any (!·.truthy) <;> simp
  · simp [one]

end Categories

namespace Request

variable {known : Option (Project × Known)} {c : Change} {o : Operation} {d : Datum}
  {said : List Complaint} {warnings : List String} {fields : List String}

/-! ## What is said of which field -/

/-- Of complaints in two parts, one of them about some fields and the other about none of them, none
is about those fields exactly if the first part is empty. -/
theorem unblamed_iff {mine rest : List Complaint} (parts : ∀ x, x ∈ said ↔ x ∈ mine ∨ x ∈ rest)
    (about : About fields mine) (apart : ∀ x ∈ rest, x.1 ∉ fields) :
    (∀ x ∈ said, x.1 ∉ fields) ↔ mine = [] := by
  constructor
  · intro none
    refine List.eq_nil_iff_forall_not_mem.mpr fun x hx => ?_
    exact none x ((parts x).mpr (.inl hx)) (about x hx).field
  · rintro rfl x hx
    rcases (parts x).mp hx with hx | hx
    · cases hx
    · exact apart x hx

theorem About.apart {others : List String} (about : About fields said)
    (apart : ∀ name ∈ fields, name ∉ others) : ∀ x ∈ said, x.1 ∉ others :=
  fun x hx => apart x.1 (about x hx).field

theorem field_of_languageComplaint {k : Known} {name : String}
    (h : languageComplaint k c name = .ok said) : ∀ x ∈ said, x.1 = name := by
  unfold languageComplaint at h
  dsimp only at h
  split at h
  · cases h
    simp
  · obtain ⟨shown, -, rfl⟩ := map_eq_ok_iff.mp h
    simp

/-- What is said of a change with all of its fields is what is wrong with its category, with its
environment, and with fields that are neither. -/
theorem mem_complaints_iff (ho : Operation.ofName? c.operation = some o)
    (complete : missingFields o c = []) (h : complaints known c = .ok (said, warnings)) :
    ∃ others : List Complaint, (∀ x ∈ others, x.1 ∉ ["key", "content"]) ∧
      (∀ x ∈ others, x.1 ∉ ["environment"]) ∧ ∀ x, x ∈ said ↔
        x ∈ others ∨ x ∈ categoryComplaints o c ∨ x ∈ environmentComplaints o c := by
  simp only [complaints, ho, formComplaints, complete, bind_assoc] at h
  obtain ⟨ancestors, ha, h⟩ := bind_eq_ok_iff.mp h
  obtain ⟨patterns, hp, h⟩ := bind_eq_ok_iff.mp h
  rw [pure_bind] at h
  have form : About sharedFields (kindComplaints c ++ ancestors ++ patterns
      ++ derivationComplaints o c) :=
    (((about_kindComplaints c).append (about_ancestorComplaints ha)).append
      (about_patternComplaints hp)).append (about_derivationComplaints o c)
  generalize hf : kindComplaints c ++ categoryComplaints o c ++ ancestors ++ patterns
    ++ environmentComplaints o c ++ derivationComplaints o c = whole at h
  split at h
  · -- nothing is wrong with the change by itself, so only references are reported
    simp only [List.append_eq_nil_iff] at hf
    obtain ⟨⟨⟨⟨⟨-, category⟩, -⟩, -⟩, environment⟩, -⟩ := hf
    obtain ⟨language, hl, h⟩ := bind_eq_ok_iff.mp h
    obtain ⟨ancestor, ha, h⟩ := bind_eq_ok_iff.mp h
    obtain ⟨_, -, h⟩ := bind_eq_ok_iff.mp h
    cases h
    have either : ∀ x ∈ language ++ ancestor, x.1 = "language" ∨ x.1 = "ancestor" := by
      intro x hx
      rcases List.mem_append.mp hx with hx | hx
      · exact .inl (field_of_languageComplaint hl x hx)
      · exact .inr (field_of_languageComplaint ha x hx)
    refine ⟨language ++ ancestor, fun x hx => ?_, fun x hx => ?_, fun x => ?_⟩
    · rcases either x hx with hx | hx <;> simp [hx]
    · rcases either x hx with hx | hx <;> simp [hx]
    · simp [category, environment]
  · cases h
    refine ⟨_, form.apart (by decide), form.apart (by decide), fun x => ?_⟩
    simp only [← hf, List.mem_append]
    grind

theorem unblamed_category_iff (ho : Operation.ofName? c.operation = some o)
    (complete : missingFields o c = []) (h : complaints known c = .ok (said, warnings)) :
    (∀ x ∈ said, x.1 ∉ ["key", "content"]) ↔ categoryComplaints o c = [] := by
  obtain ⟨others, apart, -, parts⟩ := mem_complaints_iff ho complete h
  have split (x : Complaint) :
      x ∈ said ↔ x ∈ categoryComplaints o c ∨ x ∈ others ++ environmentComplaints o c := by
    rw [parts, List.mem_append, or_left_comm]
  exact unblamed_iff split (about_categoryComplaints o c) (List.forall_mem_append.mpr
    ⟨apart, (about_environmentComplaints o c).apart (by decide)⟩)

theorem unblamed_environment_iff (ho : Operation.ofName? c.operation = some o)
    (complete : missingFields o c = []) (h : complaints known c = .ok (said, warnings)) :
    (∀ x ∈ said, x.1 ∉ ["environment"]) ↔ environmentComplaints o c = [] := by
  obtain ⟨others, -, apart, parts⟩ := mem_complaints_iff ho complete h
  have split (x : Complaint) :
      x ∈ said ↔ x ∈ environmentComplaints o c ∨ x ∈ others ++ categoryComplaints o c := by
    rw [parts, List.mem_append, ← or_assoc, or_comm]
  exact unblamed_iff split (about_environmentComplaints o c) (List.forall_mem_append.mpr
    ⟨apart, (about_categoryComplaints o c).apart (by decide)⟩)

/-! ## The same conditions -/

theorem fieldOrNull_of_field? {name : String} (h : c.field? name = some d) :
    c.fieldOrNull name = d := by
  rw [Change.fieldOrNull, h]
  rfl

theorem environmentComplaints_eq_nil_iff {s : String} (brings : o.bringsSoundChange = true)
    (hs : c.field? "environment" = some (.text s)) :
    environmentComplaints o c = [] ↔ ∃ sides, SoundChange.sidesOf s = .ok sides := by
  rw [SoundChange.sidesOf_returns_iff]
  simp [environmentComplaints, brings, fieldOrNull_of_field? hs]

theorem keyComplaints_eq_nil_iff {key : String} (hk : c.field? "key" = some (.text key)) :
    keyComplaints c = [] ↔ key.length = 1 := by
  simp [keyComplaints, fieldOrNull_of_field? hk, isCategoryKey]

/-- A text that is not empty gives graphemes, none of which can be empty. -/
theorem contentComplaints_eq_nil_iff {content : Content}
    (hc : c.field? "content" = some content.datum) :
    ∃ graphemes, content.datum.elements? = some graphemes ∧
      (contentComplaints c = [] ↔ graphemes ≠ [] ∧ ∀ g ∈ graphemes, g.truthy = true) := by
  cases content with
  | letters s =>
    refine ⟨_, rfl, ?_⟩
    rw [contentComplaints, fieldOrNull_of_field? hc]
    simp [Content.datum, isGrapheme, Datum.truthy]
  | graphemes texts =>
    refine ⟨_, rfl, ?_⟩
    rw [contentComplaints, fieldOrNull_of_field? hc]
    have filled : ("" ∉ texts) ↔ ∀ s ∈ texts, s ≠ "" :=
      ⟨fun absent s hs empty => absent (empty ▸ hs), fun all empty => all "" empty rfl⟩
    simp [Content.datum, isGrapheme, Datum.truthy, filled]

theorem categoryComplaints_eq_nil_iff {key : String} {content : Content}
    (hk : c.field? "key" = some (.text key)) (hc : c.field? "content" = some content.datum)
    (t : Categories) :
    categoryComplaints .addCategory c = [] ↔ ∃ u, t.add (.text key) content.datum = .ok u := by
  obtain ⟨graphemes, elements, accepted⟩ := contentComplaints_eq_nil_iff hc
  rw [categoryComplaints, List.append_eq_nil_iff, keyComplaints_eq_nil_iff hk, accepted,
    t.add_returns_iff elements]

/-! ## All changes -/

/-- The result of a check has an error about one of some fields of the change at a place. -/
def CheckResult.Blames (result : CheckResult) (place : Nat) (fields : List String) : Prop :=
  ∃ e ∈ result.errors, e.index = place ∧ e.field ∈ fields

variable {index place : Nat} {changes : List Change} {result : CheckResult}

/-- The errors at the place of a change are the complaints about it. -/
theorem blames_iff (h : checkFrom known index changes = .ok result)
    (hc : changes[place]? = some c) :
    ∃ said warnings, complaints (knownAfter known (changes.take place)) c = .ok (said, warnings) ∧
      ∀ fields, result.Blames (index + place) fields ↔ ∃ x ∈ said, x.1 ∈ fields := by
  obtain ⟨said, warnings, hs, listed⟩ := complaints_of_checkFrom h hc
  refine ⟨said, warnings, hs, fun fields => ⟨?_, ?_⟩⟩
  · rintro ⟨e, he, here, about⟩
    obtain ⟨other, _, _, _, hc', hs', among, there⟩ := placed_of_mem_errors h he
    obtain rfl : place = other := by omega
    cases hc.symm.trans hc'
    cases hs.symm.trans hs'
    exact ⟨_, among, about⟩
  · rintro ⟨x, hx, about⟩
    exact ⟨_, listed x hx, rfl, about⟩

/-- What a check finds wrong with the fields of a change that are looked at again is what the engine
refuses, whatever categories there are. -/
structure CheckResult.Rechecks (result : CheckResult) (place : Nat) (o : Operation) (c : Change) :
    Prop where
  environment : o.bringsSoundChange = true → ∀ s, c.field? "environment" = some (.text s) →
    (¬result.Blames place ["environment"] ↔ ∃ sides, SoundChange.sidesOf s = .ok sides)
  category : o = .addCategory → ∀ (key : String) (content : Content),
    c.field? "key" = some (.text key) → c.field? "content" = some content.datum →
    ∀ t : Categories, (¬result.Blames place ["key", "content"] ↔
      ∃ u, t.add (.text key) content.datum = .ok u)

/-- Of a change with all of its fields, a check finds fault with the environment of a sound change
exactly if it cannot be split, and with the key or the content of a category exactly if no table
takes it. A check that does not return has been ended by one of the listed causes. -/
theorem validate_rechecks {r : Request} (p : Option Project) (hc : r.changes[place]? = some c)
    (ho : Operation.ofName? c.operation = some o) (complete : missingFields o c = []) :
    (∃ result, r.validate p = .ok result ∧ result.Rechecks place o c) ∨
      ∃ e, r.validate p = .error e ∧ Unanswered r p e := by
  cases h : r.validate p with
  | error e => exact .inr ⟨e, rfl, unanswered_validate r p e h⟩
  | ok result =>
    refine .inl ⟨result, rfl, ?_⟩
    obtain ⟨said, warnings, hs, blames⟩ := blames_iff (check_of_validate h) hc
    rw [Nat.zero_add] at blames
    constructor
    · intro brings s environment
      rw [← environmentComplaints_eq_nil_iff brings environment,
        ← unblamed_environment_iff ho complete hs]
      simp only [blames, not_exists, not_and]
    · intro category key content hk hcontent t
      subst category
      rw [← categoryComplaints_eq_nil_iff hk hcontent t, ← unblamed_category_iff ho complete hs]
      simp only [blames, not_exists, not_and]

/-- A sound change between two markers, and a category with a grapheme of two letters. -/
def markedTwice : Request :=
  ⟨[⟨"insert_sound_change", [("language", (0 : Int)), ("index", (0 : Int)), ("target", "V"),
      ("replacement", "a"), ("environment", "_t_")], some 2⟩,
    ⟨"add_category", [("language", (0 : Int)), ("key", "V"), ("content", .list ["a", "ts"])],
      some 3⟩],
    .null, .null, .null⟩

theorem validate_rechecks_marked_twice :
    ∃ result, markedTwice.validate none = .ok result ∧ result.Blames 0 ["environment"] ∧
      ¬result.Blames 1 ["key", "content"] := by
  have returns : (markedTwice.validate none).toOption.isSome = true := by decide +kernel
  have first := validate_rechecks none (show markedTwice.changes[0]? = some _ from rfl)
    (show _ = some (.rule .soundChange .insert) from by decide +kernel) (by decide +kernel)
  have second := validate_rechecks none (show markedTwice.changes[1]? = some _ from rfl)
    (show _ = some .addCategory from by decide +kernel) (by decide +kernel)
  obtain ⟨result, h⟩ := Option.isSome_iff_exists.mp returns
  rw [toOption_eq_some_iff.mp h] at first second
  obtain ⟨_, here, again⟩ | ⟨e, never, -⟩ := first
  · cases here
    obtain ⟨_, here, again'⟩ | ⟨e, never, -⟩ := second
    · cases here
      refine ⟨result, toOption_eq_some_iff.mp h, ?_, ?_⟩
      · by_contra clean
        have two := SoundChange.sidesOf_returns_iff.mp ((again.environment rfl "_t_" rfl).mp clean)
        exact absurd two (by decide)
      · exact (again'.category rfl "V" (.graphemes ["a", "ts"]) rfl rfl .empty).mpr ⟨_, rfl⟩
    · cases never
  · cases never

end Request
end Neogrammar
