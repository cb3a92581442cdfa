import Neogrammar.Proofs.Request.Complaints

/-!
# Requests that a check answers

A check answers with errors and warnings, except where a language of the project has a name that
cannot be looked up, where a value that the answer shows has a number past the digit limit, and
where the pattern of a plain rule is refused otherwise than for a fault of its text.
-/
namespace Neogrammar

namespace Request

variable {known : Option (Project × Known)} {p : Project} {k : Known} {c : Change} {o : Operation}
  {d : Datum} {e : Error} {said : List Complaint × List String}

/-! ## What an answer shows -/

/-- Whether a complaint about a coordinate shows the value itself. -/
def showsCoordinate : Datum → Bool
  | .text _ => false
  | .map es =>
    !(isIndex ((Datum.field? "lang" es).getD .null) &&
      isIndex ((Datum.field? "word" es).getD .null))
  | _ => true

theorem coordinateComplaint_eq_error_iff : coordinateComplaint d = .error e ↔
    showsCoordinate d = true ∧ d.isWritable = false ∧ e = .number .unwritable := by
  cases d with
  | text s =>
    simp only [coordinateComplaint, showsCoordinate, Bool.false_eq_true, false_and, iff_false]
    split <;> simp
  | map es =>
    simp only [coordinateComplaint, showsCoordinate]
    split
    · simp [*]
    · simp [*, map_eq_error_iff, Datum.noted_eq_error_iff]
  | _ => simp [coordinateComplaint, showsCoordinate, map_eq_error_iff, Datum.noted_eq_error_iff]

/-- What ends the check of a change, and by which error. -/
inductive Halts (known : Option (Project × Known)) (c : Change) : Error → Prop
  /-- What is wrong with a coordinate cannot be written. -/
  | coordinate {o : Operation} {items : List Datum} {d : Datum}
      (ho : Operation.ofName? c.operation = some o) (complete : missingFields o c = [])
      (listed : c.field? "ancestors" = some (.list items)) (hd : d ∈ items)
      (shown : showsCoordinate d = true) (vast : d.isWritable = false) :
      Halts known c (.number .unwritable)
  /-- The pattern of a plain rule is refused, but not for a fault. -/
  | pattern {o : Operation} {s : String} {refusal : Pattern.Refusal}
      (ho : Operation.ofName? c.operation = some o) (complete : missingFields o c = [])
      (brings : o.bringsPlainRule = true) (hs : c.fieldOrNull "pattern" = .text s)
      (refused : Pattern.parse s.toList = .error refusal) (other : ∀ f, refusal ≠ .fault f) :
      Halts known c (.ofRefusal "" s refusal)
  /-- An unknown language cannot be written. -/
  | language {o : Operation} {p : Project} {k : Known} {name : String}
      (ho : Operation.ofName? c.operation = some o) (formed : Formed o c)
      (hk : known = some (p, k)) (hn : name ∈ languageFields)
      (given : (c.fieldOrNull name).isNull = false) (unknown : k.has (c.fieldOrNull name) = false)
      (vast : (c.fieldOrNull name).isWritable = false) : Halts known c (.number .unwritable)
  /-- The index of a missing part of speech cannot be written. -/
  | pos {o : Operation} {p : Project} {k : Known} {n : Int}
      (ho : Operation.ofName? c.operation = some o) (formed : Formed o c)
      (hk : known = some (p, k)) (hn : c.fieldOrNull "pos" = .int n)
      (gone : p.partsOfSpeech.isLive n = false) (vast : Text.isWritable n = false) :
      Halts known c (.number .unwritable)

/-! ## One change -/

theorem halts_ancestorComplaints (ho : Operation.ofName? c.operation = some o)
    (complete : missingFields o c = []) : FailsOnly (Halts known c) (ancestorComplaints c) := by
  unfold ancestorComplaints
  split
  · exact .ok _
  · rename_i items listed
    refine .map (.mapM fun d hd e he => ?_)
    obtain ⟨shown, vast, rfl⟩ := coordinateComplaint_eq_error_iff.mp he
    exact .coordinate ho complete listed hd shown vast
  · exact .ok _

theorem halts_patternComplaints (ho : Operation.ofName? c.operation = some o)
    (complete : missingFields o c = []) : FailsOnly (Halts known c) (patternComplaints o c) := by
  unfold patternComplaints
  split
  · rename_i brings hs
    split
    · exact .ok _
    · exact .ok _
    · rename_i refusal other refused
      exact .error (.pattern ho complete brings hs refused other)
  · exact .ok _

theorem halts_formComplaints (ho : Operation.ofName? c.operation = some o) :
    FailsOnly (Halts known c) (formComplaints o c) := by
  unfold formComplaints
  split
  · rename_i complete
    exact (halts_ancestorComplaints ho complete).bind fun _ _ =>
      (halts_patternComplaints ho complete).bind fun _ _ => .ok _
  · exact .ok _

theorem halts_languageComplaint {name : String} (ho : Operation.ofName? c.operation = some o)
    (formed : Formed o c) (hn : name ∈ languageFields) :
    FailsOnly (Halts (some (p, k)) c) (languageComplaint k c name) := by
  unfold languageComplaint
  dsimp only
  split
  · exact .ok _
  · rename_i lost
    simp only [Bool.or_eq_true, not_or, Bool.not_eq_true] at lost
    intro e he
    obtain ⟨vast, rfl⟩ := Datum.noted_eq_error_iff.mp (map_eq_error_iff.mp he)
    exact .language ho formed rfl hn lost.1 lost.2 vast

theorem halts_posWarnings (ho : Operation.ofName? c.operation = some o) (formed : Formed o c) :
    FailsOnly (Halts (some (p, k)) c) (posWarnings p c) := by
  unfold posWarnings
  split
  · split
    · exact .ok _
    · exact .ok _
  · rename_i n hn
    split
    · exact .ok _
    · rename_i gone
      intro e he
      obtain ⟨vast, rfl⟩ := Datum.noted_eq_error_iff.mp (map_eq_error_iff.mp he)
      exact .pos ho formed rfl hn (by simpa using gone) vast
  · exact .ok _

/-- The check of a change ends by nothing else. -/
theorem halts_complaints : FailsOnly (Halts known c) (complaints known c) := by
  unfold complaints
  split
  · exact .ok _
  · rename_i o ho
    refine (halts_formComplaints ho).bind fun form hf => ?_
    split
    · rename_i p k
      have formed := formed_of_formComplaints hf
      exact (halts_languageComplaint ho formed (by simp [languageFields])).bind fun _ _ =>
        (halts_languageComplaint ho formed (by simp [languageFields])).bind fun _ _ =>
          (halts_posWarnings ho formed).bind fun _ _ => .ok _
    · exact .ok _

theorem formComplaints_of_formed (formed : Formed o c) : formComplaints o c = .ok [] := by
  have complete : missingFields o c = [] := by
    rw [missingFields, List.map_eq_nil_iff, List.filter_eq_nil_iff]
    exact fun name hn => by simp [formed.given name hn]
  simp [formComplaints, complete, formed.kinds, formed.categories, formed.ancestors,
    formed.patterns, formed.environment, formed.derivation, pure_eq_ok]

/-- An operation's own checks have been made of a change with all of its fields. -/
theorem checks_of_complaints (ho : Operation.ofName? c.operation = some o)
    (complete : missingFields o c = []) (h : complaints known c = .ok said) :
    ∃ ancestors patterns, ancestorComplaints c = .ok ancestors ∧
      patternComplaints o c = .ok patterns := by
  simp only [complaints, ho] at h
  obtain ⟨form, hf, -⟩ := bind_eq_ok_iff.mp h
  simp only [formComplaints, complete] at hf
  obtain ⟨ancestors, ha, hf⟩ := bind_eq_ok_iff.mp hf
  obtain ⟨patterns, hp, -⟩ := bind_eq_ok_iff.mp hf
  exact ⟨ancestors, patterns, ha, hp⟩

/-- The references of a change with which nothing else is wrong have been looked at. -/
theorem references_of_complaints (ho : Operation.ofName? c.operation = some o)
    (formed : Formed o c) (h : complaints (some (p, k)) c = .ok said) :
    (∀ name ∈ languageFields, ∃ lost, languageComplaint k c name = .ok lost) ∧
      ∃ warnings, posWarnings p c = .ok warnings := by
  simp only [complaints, ho, formComplaints_of_formed formed, ok_bind] at h
  obtain ⟨language, hl, h⟩ := bind_eq_ok_iff.mp h
  obtain ⟨ancestor, ha, h⟩ := bind_eq_ok_iff.mp h
  obtain ⟨warnings, hw, -⟩ := bind_eq_ok_iff.mp h
  exact ⟨by simpa [languageFields] using ⟨⟨language, hl⟩, ancestor, ha⟩, warnings, hw⟩

/-- Where something ends the check of a change, there are no complaints to return. -/
theorem not_halts_of_complaints (h : complaints known c = .ok said) : ¬Halts known c e := by
  intro halts
  cases halts with
  | coordinate ho complete listed hd shown vast =>
    obtain ⟨ancestors, -, ha, -⟩ := checks_of_complaints ho complete h
    simp only [ancestorComplaints, listed] at ha
    obtain ⟨each, hm, -⟩ := map_eq_ok_iff.mp ha
    obtain ⟨one, -, returned⟩ := mapM_mem hm hd
    rw [coordinateComplaint_eq_error_iff.mpr ⟨shown, vast, rfl⟩] at returned
    cases returned
  | pattern ho complete brings hs refused other =>
    obtain ⟨-, patterns, -, hp⟩ := checks_of_complaints ho complete h
    simp only [patternComplaints, brings, hs, refused] at hp
    cases hp
  | language ho formed hk hn given unknown vast =>
    subst hk
    obtain ⟨lost, hl⟩ := (references_of_complaints ho formed h).1 _ hn
    simp only [languageComplaint, given, unknown, Bool.or_self, Bool.false_eq_true, if_false] at hl
    obtain ⟨shown, noted, -⟩ := map_eq_ok_iff.mp hl
    rw [Datum.noted_eq_error_iff.mpr ⟨vast, rfl⟩] at noted
    cases noted
  | pos ho formed hk hn gone vast =>
    subst hk
    obtain ⟨warnings, hw⟩ := (references_of_complaints ho formed h).2
    simp only [posWarnings, hn, gone, Bool.false_eq_true, if_false] at hw
    obtain ⟨shown, noted, -⟩ := map_eq_ok_iff.mp hw
    have whole : (Datum.int _).isWritable = false := vast
    rw [Datum.noted_eq_error_iff.mpr ⟨whole, rfl⟩] at noted
    cases noted

/-! ## All changes -/

/-- What ends the check of a request, and by which error. -/
inductive Unanswered (r : Request) (p : Option Project) : Error → Prop
  /-- A language of the project cannot be looked up by its name. -/
  | name {q : Project} {item : Nat × Language} (hq : p = some q) (there : item ∈ q.languages.items)
      (other : item.2.name.isKey = false) : Unanswered r p .wrongKind
  /-- Something ends the check of a change, given the languages known before it. -/
  | change {place : Nat} {c : Change} {e : Error} (hc : r.changes[place]? = some c)
      (halts : Halts (knownAfter (p.map fun q => (q, .ofProject q)) (r.changes.take place)) c e) :
      Unanswered r p e

theorem unanswered_validate (r : Request) (p : Option Project) :
    FailsOnly (Unanswered r p) (r.validate p) := by
  unfold validate
  split
  · intro e he
    obtain ⟨place, c, hc, he⟩ := of_checkFrom_error he
    exact .change hc (halts_complaints e he)
  · rename_i nameless
    obtain ⟨q, rfl, lost⟩ : ∃ q, p = some q ∧ hasKeys q = false := by
      cases p with
      | none => exact absurd rfl nameless
      | some q => exact ⟨q, rfl, by simpa using nameless⟩
    obtain ⟨item, there, other⟩ := List.all_eq_false.mp lost
    exact .error (.name rfl there (by simpa using other))

theorem answered_of_validate {r : Request} {q : Option Project} {result : CheckResult}
    (h : r.validate q = .ok result) : ¬Unanswered r q e := by
  unfold validate at h
  split at h
  · rename_i keys
    intro unanswered
    cases unanswered with
    | name hq there other =>
      subst hq
      have key := List.all_eq_true.mp keys _ there
      rw [other] at key
      cases key
    | change hc halts =>
      obtain ⟨errors, warnings, returned, -⟩ := complaints_of_checkFrom h hc
      exact not_halts_of_complaints returned halts
  · cases h

/-- A check of a request returns exactly if nothing ends it, and where it fails, one of the listed
causes has ended it. -/
theorem validate_returns_iff (r : Request) (p : Option Project) :
    ((∃ result, r.validate p = .ok result) ↔ ∀ e, ¬Unanswered r p e) ∧
      ∀ e, r.validate p = .error e → Unanswered r p e := by
  refine ⟨⟨fun ⟨_, h⟩ e => answered_of_validate h, fun never => ?_⟩, unanswered_validate r p⟩
  cases h : r.validate p with
  | ok result => exact ⟨result, rfl⟩
  | error e => exact absurd (unanswered_validate r p e h) (never e)

/-- A request with a rule whose pattern counts further than patterns can. -/
def boundlessText : String :=
  "changes:\n- \x7boperation: add_surface_rule, language: 0, pattern: 'a\x7b4294967296\x7d', "
    ++ "replacement: b\x7d\n"

/-- The request is read, and there is no result of its check. -/
theorem validate_boundless : ∃ r, ofText boundlessText = .ok r ∧
    r.validate none = .error .repetitionTooLarge := by
  have outcome : (match ofText boundlessText with
      | .ok r => (match r.validate none with
        | .error .repetitionTooLarge => true
        | _ => false)
      | .error _ => false) = true := by
    decide +kernel
  split at outcome
  · rename_i r hr
    split at outcome
    · rename_i stopped
      exact ⟨r, hr, stopped⟩
    · cases outcome
  · cases outcome

end Request
end Neogrammar
