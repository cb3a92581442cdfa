import Neogrammar.Proofs.Request.References

/-!
# Requests that run and that a check accepts

Where every change of a request succeeds, a check finds no reference to a language that is not
there, as long as it can foresee the languages: it does not follow renaming, does not count languages
whose names are no texts, looks at references that the operation has no use for, and does not know a
slot that is empty, which may be emptied again.
-/
namespace Neogrammar.Request

variable {cfg : Config} {p q : Project} {k : Known} {c : Change} {o : Operation} {d : Datum}
  {changes : List Change}

/-! ## Other complaints -/

/-- The first character tells the report of a missing language from all others. -/
theorem head_notFoundMessage (reference : String) :
    (notFoundMessage reference).toList.head? = some 'L' := by
  simp [notFoundMessage]

/-- Complaints none of which reports a missing language. -/
def Elsewhere (complaints : List Complaint) : Prop :=
  ∀ e ∈ complaints, e.2.toList.head? ≠ some 'L'

theorem elsewhere_nil : Elsewhere [] := by simp [Elsewhere]

theorem About.elsewhere {fields : List String} {complaints : List Complaint}
    (h : About fields complaints) : Elsewhere complaints := fun e he => (h e he).words

theorem elsewhere_missingFields (o : Operation) (c : Change) : Elsewhere (missingFields o c) := by
  intro e he
  obtain ⟨name, -, rfl⟩ := List.mem_map.mp he
  simp

/-- What is wrong with a change by itself is never that a language is missing. -/
theorem elsewhere_formComplaints {form : List Complaint} (h : formComplaints o c = .ok form) :
    Elsewhere form := by
  unfold formComplaints at h
  split at h
  · obtain ⟨ancestors, ha, h⟩ := bind_eq_ok_iff.mp h
    obtain ⟨patterns, hp, h⟩ := bind_eq_ok_iff.mp h
    cases h
    simp only [Elsewhere, List.forall_mem_append]
    exact ⟨⟨⟨⟨⟨(about_kindComplaints c).elsewhere, (about_categoryComplaints o c).elsewhere⟩,
      (about_ancestorComplaints ha).elsewhere⟩, (about_patternComplaints hp).elsewhere⟩,
      (about_environmentComplaints o c).elsewhere⟩, (about_derivationComplaints o c).elsewhere⟩
  · cases h
    exact elsewhere_missingFields o c

/-! ## What is there is known -/

/-- A change that renames a language, to a name. -/
def RenamesTo (c : Change) (name : Datum) : Prop :=
  Operation.ofName? c.operation = some .renameLanguage ∧ c.field? "name" = some name

/-- What was known stays known. -/
theorem names_subset_after (k : Known) (c : Change) : k.names ⊆ (k.after c).names := by
  unfold Known.after
  split
  · exact List.subset_cons_self _ _
  · exact List.Subset.refl _

/-- A text on the roster is a known name, or a language was renamed to it. -/
theorem known_of_mem_roster {s : String}
    (h : some (.text s) ∈ (projectAfter cfg p changes).roster) :
    .text s ∈ (changes.foldl Known.after (.ofProject p)).names ∨
      ∃ b ∈ changes, RenamesTo b (.text s) := by
  induction changes using List.reverseRecOn with
  | nil => exact .inl (mem_names_ofProject.mpr h)
  | append_singleton changes c ih =>
    rw [List.foldl_concat]
    have earlier (h : some (.text s) ∈ (projectAfter cfg p changes).roster) :
        .text s ∈ ((changes.foldl Known.after (.ofProject p)).after c).names ∨
          ∃ b ∈ changes ++ [c], RenamesTo b (.text s) := by
      rcases ih h with hk | ⟨b, hb, hr⟩
      · exact .inl (names_subset_after _ c hk)
      · exact .inr ⟨b, List.mem_append_left _ hb, hr⟩
    have step := rosterStep_runChange (projectAfter cfg p changes) cfg 0 c
    rw [projectAfter_concat] at h
    generalize (runChange (projectAfter cfg p changes) cfg 0 c).1.roster = r at h step
    cases step with
    | same => exact earlier h
    | added ho hn =>
      rcases List.mem_append.mp h with h | h
      · exact earlier h
      · cases List.mem_singleton.mp h
        exact .inl (by simp [after_added ho hn, Known.add])
    | renamed ho hn =>
      rcases List.mem_or_eq_of_mem_set h with h | h
      · exact earlier h
      · cases h
        exact .inr ⟨c, by simp, ho, hn⟩
    | removed =>
      rcases List.mem_or_eq_of_mem_set h with h | h
      · exact earlier h
      · cases h

/-- Every index on the roster is known, and so is the next one. -/
structure Counts (k : Known) (r : List (Option Datum)) : Prop where
  next : k.next = r.length
  indices : ∀ i name, r[i]? = some (some name) → i ∈ k.indices

theorem Counts.add {r : List (Option Datum)} (h : Counts k r) (name : Datum) :
    Counts (k.add name) (r ++ [some name]) := by
  constructor
  · simp [Known.add, h.next]
  · intro i n hi
    rcases Nat.lt_or_ge i r.length with short | far
    · rw [List.getElem?_append_left short] at hi
      exact List.mem_cons_of_mem _ (h.indices i n hi)
    · have last : i < (r ++ [some name]).length := (List.getElem?_eq_some_iff.mp hi).1
      rw [List.length_append, List.length_singleton] at last
      have at_end : i = r.length := by omega
      rw [at_end, ← h.next]
      exact List.mem_cons_self

/-- Where languages are added by texts, a check counts them right. -/
theorem counts_projectAfter (cfg : Config) (p : Project)
    (texts : ∀ b ∈ changes, Operation.ofName? b.operation = some .addLanguage →
      ∃ s, b.field? "name" = some (.text s)) :
    Counts (changes.foldl Known.after (.ofProject p)) (projectAfter cfg p changes).roster := by
  induction changes using List.reverseRecOn with
  | nil => exact ⟨(Project.length_roster p).symm, fun _ _ h => mem_indices_ofProject.mpr ⟨_, h⟩⟩
  | append_singleton changes c ih =>
    rw [List.forall_mem_append] at texts
    have counts := ih texts.1
    have here := texts.2 c (List.mem_singleton_self c)
    have other (ho : Operation.ofName? c.operation ≠ some .addLanguage) :
        (changes.foldl Known.after (.ofProject p)).after c =
          changes.foldl Known.after (.ofProject p) :=
      after_eq_self fun adds => absurd adds ho
    have step := rosterStep_runChange (projectAfter cfg p changes) cfg 0 c
    rw [List.foldl_concat, projectAfter_concat]
    generalize (runChange (projectAfter cfg p changes) cfg 0 c).1.roster = r at step
    cases step with
    | same none =>
      rw [after_eq_self fun ho s hn => by simp [none ho] at hn]
      exact counts
    | added ho hn =>
      obtain ⟨s, hs⟩ := here ho
      cases hn.symm.trans hs
      rw [after_added ho hs]
      exact counts.add _
    | renamed ho _ held =>
      rw [other (by simp [ho])]
      refine ⟨by simp [counts.next], fun j n hj => ?_⟩
      rw [List.getElem?_set] at hj
      split at hj
      · rename_i same
        exact same ▸ counts.indices _ _ held
      · exact counts.indices j n hj
    | removed _ ho =>
      rw [other (by simp [ho])]
      refine ⟨by simp [counts.next], fun j n hj => ?_⟩
      rw [List.getElem?_set] at hj
      split at hj
      · split at hj <;> cases hj
      · exact counts.indices j n hj

/-! ## What success tells -/

theorem languageOf_of_need {name : String} {i : Int} (h : needLanguage p c name = .ok i)
    (hd : c.field? name = some d) : languageOf p d = .ok i := by
  obtain ⟨e, he, h⟩ := bind_eq_ok_iff.mp h
  rw [need_eq_ok_iff, hd] at he
  cases he
  exact h

/-- An operation that looks at a language returns only if it is there. -/
theorem live_of_bind {α : Type} {lang : Int} {a : α} {f : Language → Except Error α}
    (h : p.language lang >>= f = .ok a) : ∃ l, p.language lang = .ok l := by
  obtain ⟨l, hl, -⟩ := bind_eq_ok_iff.mp h
  exact ⟨l, hl⟩

theorem live_of_morphLanguages {lang : Int} {count n : Nat}
    (h : (Project.morphLanguages cfg p count [lang]).2 = .ok n) : ∃ l, p.language lang = .ok l := by
  cases hl : p.language lang with
  | error e => simp [Project.morphLanguages, Project.morphLanguage, hl] at h
  | ok l => exact ⟨l, rfl⟩

/-- A language that a successful change refers to as its own is there, unless it was to be
removed. -/
theorem made_language {done : Done} (made : Made cfg p c o q (.ok done))
    (follows : "language" ∈ o.required ++ o.optionalFields) (hd : c.field? "language" = some d)
    (given : d.isNull = false) :
    ∃ i, languageOf p d = .ok i ∧
      (o = .removeLanguage ∧ needLanguage p c "language" = .ok i ∨ ∃ l, p.language i = .ok l) := by
  generalize hr : (.ok done : Except Error Done) = report at made
  cases made with
  | addLanguage => simp [Operation.required, Operation.optionalFields] at follows
  | addPos => simp [Operation.required, Operation.optionalFields] at follows
  | alterPos => simp [Operation.required, Operation.optionalFields] at follows
  | removePos => simp [Operation.required, Operation.optionalFields] at follows
  | removeLanguage hl => exact ⟨_, languageOf_of_need hl hd, .inl ⟨rfl, hl⟩⟩
  | derive hl =>
    obtain ⟨r, hr, -⟩ := map_eq_ok_iff.mp hr.symm
    obtain ⟨l, a, ps, vocab, unclaimed, hd', -⟩ := Project.derive_returned hr
    exact ⟨_, languageOf_of_need hl hd, .inr ⟨l, (Project.derivation_eq_ok_iff.mp hd').2.1⟩⟩
  | @morph lang hl =>
    obtain ⟨n, hn, -⟩ := map_eq_ok_iff.mp hr.symm
    have value : c.fieldOrNull "language" = d := by simp [Change.fieldOrNull, hd]
    simp only [morphLanguageOf, value, given, Bool.false_eq_true, if_false] at hl
    obtain ⟨i, hi, rfl⟩ := map_eq_ok_iff.mp hl
    exact ⟨i, hi, .inr (live_of_morphLanguages hn)⟩
  | renameLanguage hl _ h => exact ⟨_, languageOf_of_need hl hd, .inr (live_of_bind h)⟩
  | setAncestor hl _ h => exact ⟨_, languageOf_of_need hl hd, .inr (live_of_bind h)⟩
  | addWord hl _ h => exact ⟨_, languageOf_of_need hl hd, .inr (live_of_bind h)⟩
  | alterWord hl _ _ h => exact ⟨_, languageOf_of_need hl hd, .inr (live_of_bind h)⟩
  | removeWord hl _ h => exact ⟨_, languageOf_of_need hl hd, .inr (live_of_bind h)⟩
  | addRule _ hl _ _ h => exact ⟨_, languageOf_of_need hl hd, .inr (live_of_bind h)⟩
  | alterRule _ hl _ _ _ h => exact ⟨_, languageOf_of_need hl hd, .inr (live_of_bind h)⟩
  | insertRule _ hl _ _ _ h => exact ⟨_, languageOf_of_need hl hd, .inr (live_of_bind h)⟩
  | removeRule _ hl _ h => exact ⟨_, languageOf_of_need hl hd, .inr (live_of_bind h)⟩
  | addSoundChange hl _ _ _ h => exact ⟨_, languageOf_of_need hl hd, .inr (live_of_bind h)⟩
  | alterSoundChange hl _ _ _ _ h => exact ⟨_, languageOf_of_need hl hd, .inr (live_of_bind h)⟩
  | insertSoundChange hl _ _ _ _ h => exact ⟨_, languageOf_of_need hl hd, .inr (live_of_bind h)⟩
  | removeSoundChange hl _ h => exact ⟨_, languageOf_of_need hl hd, .inr (live_of_bind h)⟩
  | addCategory hl _ _ h => exact ⟨_, languageOf_of_need hl hd, .inr (live_of_bind h)⟩
  | removeCategory hl _ h => exact ⟨_, languageOf_of_need hl hd, .inr (live_of_bind h)⟩

/-- An ancestor that a successful change follows is there. -/
theorem made_ancestor {done : Done} (made : Made cfg p c o q (.ok done))
    (follows : "ancestor" ∈ o.required ++ o.optionalFields) (hd : c.field? "ancestor" = some d)
    (given : d.isNull = false) :
    ∃ i l, languageOf p d = .ok i ∧ p.language i = .ok l := by
  generalize hr : (.ok done : Except Error Done) = report at made
  cases made with
  | @setAncestor lang ancestor _ hl ha h =>
    have value : c.fieldOrNull "ancestor" = d := by simp [Change.fieldOrNull, hd]
    simp only [ancestorOf, value, given, Bool.false_eq_true, if_false] at ha
    obtain ⟨i, hi, rfl⟩ := map_eq_ok_iff.mp ha
    obtain ⟨l, -, h⟩ := bind_eq_ok_iff.mp h
    obtain ⟨m, hm, -⟩ := bind_eq_ok_iff.mp h
    dsimp only at hm
    split at hm
    · cases hm
    · obtain ⟨a, hla⟩ := live_of_bind hm
      exact ⟨i, a, hi, hla⟩
  | derive _ ha =>
    obtain ⟨r, hr, -⟩ := map_eq_ok_iff.mp hr.symm
    obtain ⟨l, a, ps, vocab, unclaimed, hd', -⟩ := Project.derive_returned hr
    exact ⟨_, a, languageOf_of_need ha hd, (Project.derivation_eq_ok_iff.mp hd').2.2.1⟩
  | @addRule kind =>
    cases kind <;> simp [Operation.required, Operation.optionalFields, Operation.ruleFields] at follows
  | @alterRule kind =>
    cases kind <;> simp [Operation.required, Operation.optionalFields, Operation.ruleFields] at follows
  | @insertRule kind =>
    cases kind <;> simp [Operation.required, Operation.optionalFields, Operation.ruleFields] at follows
  | _ => simp [Operation.required, Operation.optionalFields, Operation.ruleFields] at follows

theorem texts_of_ofValues {pattern replacement : Datum} {rule : Replace}
    (h : Replace.ofValues pattern replacement = .ok rule) :
    pattern = .text rule.pattern ∧ replacement = .text rule.replacement := by
  obtain ⟨_, -, h⟩ := bind_eq_ok_iff.mp h
  obtain ⟨_, -, h⟩ := bind_eq_ok_iff.mp h
  cases pattern with
  | text pattern =>
    cases replacement with
    | text replacement =>
      cases h
      exact ⟨rfl, rfl⟩
    | _ =>
      dsimp only at h
      split at h <;> cases h
  | _ => cases h

/-- A plain rule that is accepted has a pattern that is read. -/
theorem parses_of_checkRule {pattern replacement : Datum} {rule : Replace}
    (h : Language.checkRule pattern replacement = .ok rule) :
    ∃ s compiled, pattern = .text s ∧ Pattern.parse s.toList = .ok compiled := by
  obtain ⟨r, hr, h⟩ := bind_eq_ok_iff.mp h
  obtain ⟨substitution, hs, -⟩ := bind_eq_ok_iff.mp h
  cases hp : Pattern.parse r.pattern.toList with
  | error refusal =>
    simp only [Replace.compile, Substitution.ofTexts, hp] at hs
    cases hs
  | ok compiled => exact ⟨r.pattern, compiled, (texts_of_ofValues hr).1, hp⟩

theorem made_pattern {report : Except Error Done} (made : Made cfg p c o q report)
    (brings : o.bringsPlainRule = true) :
    ∃ s compiled, c.field? "pattern" = some (.text s) ∧
      Pattern.parse s.toList = .ok compiled := by
  have accepted {pattern replacement : Datum} {rule : Replace}
      (hp : need c "pattern" = .ok pattern)
      (h : Language.checkRule pattern replacement = .ok rule) :
      ∃ s compiled, c.field? "pattern" = some (.text s) ∧
        Pattern.parse s.toList = .ok compiled := by
    obtain ⟨s, compiled, rfl, parsed⟩ := parses_of_checkRule h
    exact ⟨s, compiled, need_eq_ok_iff.mp hp, parsed⟩
  cases made with
  | addRule _ _ hp _ h =>
    obtain ⟨l, -, h⟩ := bind_eq_ok_iff.mp h
    obtain ⟨_, h, -⟩ := bind_eq_ok_iff.mp h
    obtain ⟨rule, hr, -⟩ := bind_eq_ok_iff.mp h
    exact accepted hp hr
  | alterRule _ _ _ hp _ h =>
    obtain ⟨l, -, h⟩ := bind_eq_ok_iff.mp h
    obtain ⟨_, h, -⟩ := bind_eq_ok_iff.mp h
    obtain ⟨rule, hr, -⟩ := bind_eq_ok_iff.mp h
    exact accepted hp hr
  | insertRule _ _ _ hp _ h =>
    obtain ⟨l, -, h⟩ := bind_eq_ok_iff.mp h
    obtain ⟨_, h, -⟩ := bind_eq_ok_iff.mp h
    obtain ⟨rule, hr, -⟩ := bind_eq_ok_iff.mp h
    exact accepted hp hr
  | @removeRule kind => cases kind <;> simp [Operation.bringsPlainRule] at brings
  | _ => simp [Operation.bringsPlainRule] at brings

/-- The pattern of a change that was made has no fault. -/
theorem patternComplaints_of_made {report : Except Error Done} (made : Made cfg p c o q report) :
    patternComplaints o c = .ok [] := by
  cases hb : o.bringsPlainRule with
  | false => simp [patternComplaints, hb]
  | true =>
    obtain ⟨s, compiled, hs, parsed⟩ := made_pattern made hb
    have value : c.fieldOrNull "pattern" = .text s := by simp [Change.fieldOrNull, hs]
    simp [patternComplaints, hb, value, parsed]

/-! ## What is said of a change that succeeds -/

theorem ancestorComplaints_error {e : Error} (h : ancestorComplaints c = .error e) :
    e = .number .unwritable := by
  unfold ancestorComplaints at h
  split at h
  · cases h
  · obtain ⟨item, -, h⟩ := of_mapM_eq_error (map_eq_error_iff.mp h)
    unfold coordinateComplaint at h
    split at h
    · split at h <;> cases h
    · dsimp only at h
      split at h
      · cases h
      · exact (Datum.noted_eq_error_iff.mp (map_eq_error_iff.mp h)).2
    · exact (Datum.noted_eq_error_iff.mp (map_eq_error_iff.mp h)).2
  · cases h

theorem posWarnings_error {e : Error} (h : posWarnings p c = .error e) :
    e = .number .unwritable := by
  unfold posWarnings at h
  split at h
  · split at h <;> cases h
  · split at h
    · cases h
    · exact (Datum.noted_eq_error_iff.mp (map_eq_error_iff.mp h)).2
  · cases h

/-- Only an ancestor that cannot be written ends the check of a change that was made. -/
theorem formComplaints_error {report : Except Error Done} {e : Error}
    (made : Made cfg p c o q report) (h : formComplaints o c = .error e) :
    e = .number .unwritable := by
  unfold formComplaints at h
  split at h
  · rcases bind_eq_error_iff.mp h with ha | ⟨ancestors, -, h⟩
    · exact ancestorComplaints_error ha
    · rw [patternComplaints_of_made made] at h
      cases h
  · cases h

theorem languageComplaint_of_has {name : String}
    (h : ∀ d, c.field? name = some d → d.isNull = false → k.has d = true) :
    languageComplaint k c name = .ok [] := by
  unfold languageComplaint
  cases hd : c.field? name with
  | none => simp [Change.fieldOrNull, hd, Datum.isNull]
  | some d =>
    cases given : d.isNull with
    | true => simp [Change.fieldOrNull, hd, given]
    | false => simp [Change.fieldOrNull, hd, h d hd given]

/-- What a check says of a change that was made, if its references are known. -/
theorem complaints_of_made {report : Except Error Done} {known : Project}
    (ho : Operation.ofName? c.operation = some o) (made : Made cfg p c o q report)
    (has : ∀ name ∈ languageFields, ∀ d, c.field? name = some d → d.isNull = false →
      isReference d = true → k.has d = true) :
    match complaints (some (known, k)) c with
    | .ok (errors, _) => Elsewhere errors
    | .error e => e = .number .unwritable := by
  simp only [complaints, ho]
  cases hf : formComplaints o c with
  | error e => exact formComplaints_error made hf
  | ok form =>
    cases form with
    | cons complaint form => exact elsewhere_formComplaints hf
    | nil =>
      have kinds := (fitting_of_kindComplaints (formed_of_formComplaints hf).kinds).languages
      have said (name : String) (hn : name ∈ languageFields) :
          languageComplaint k c name = .ok [] :=
        languageComplaint_of_has fun d hd given =>
          has name hn d hd given (kinds name hn d hd given)
      simp only [ok_bind, said "language" (by simp [languageFields]),
        said "ancestor" (by simp [languageFields])]
      cases hp : posWarnings known c with
      | error e => exact posWarnings_error hp
      | ok warnings => exact elsewhere_nil

/-! ## Requests whose languages can be foreseen -/

/-- A request that refers to languages only in ways that a check follows. -/
structure Foreseen (cfg : Config) (p : Project) (changes : List Change) : Prop where
  /-- A change holds no reference that its operation has no field for. -/
  used : ∀ c ∈ changes, ∀ o, Operation.ofName? c.operation = some o → ∀ field ∈ languageFields,
    (c.fieldOrNull field).isNull = false → field ∈ o.required ++ o.optionalFields
  /-- No language is referred to by a name that comes from renaming. -/
  names : ∀ place c, changes[place]? = some c → ∀ field ∈ languageFields, ∀ s,
    c.field? field = some (.text s) → ∀ b ∈ changes.take place, ¬ RenamesTo b (.text s)
  /-- Where an index is referred to, languages were added by texts only. -/
  indices : ∀ place c, changes[place]? = some c → ∀ field ∈ languageFields, ∀ n,
    c.field? field = some (.int n) → ∀ b ∈ changes.take place,
      Operation.ofName? b.operation = some .addLanguage →
        ∃ s, b.field? "name" = some (.text s)
  /-- No slot is emptied that is empty already. -/
  removed : ∀ place c, changes[place]? = some c →
    Operation.ofName? c.operation = some .removeLanguage → ∀ i,
      needLanguage (projectAfter cfg p (changes.take place)) c "language" = .ok i →
        ∃ l, (projectAfter cfg p (changes.take place)).language i = .ok l

/-- A reference that leads to a language is known, unless it is a name that comes from renaming, or
an index after a language whose name is no text. -/
theorem has_of_live {i : Int} {l : Language} (hd : isReference d = true)
    (hi : languageOf (projectAfter cfg p changes) d = .ok i)
    (hl : (projectAfter cfg p changes).language i = .ok l)
    (names : ∀ s, d = .text s → ∀ b ∈ changes, ¬ RenamesTo b (.text s))
    (indices : ∀ n, d = .int n → ∀ b ∈ changes,
      Operation.ofName? b.operation = some .addLanguage → ∃ s, b.field? "name" = some (.text s)) :
    (changes.foldl Known.after (.ofProject p)).has d = true := by
  cases d with
  | text s =>
    simp only [languageOf] at hi
    split at hi
    · rename_i j hj
      have there : some (.text s) ∈ (projectAfter cfg p changes).roster :=
        List.mem_of_getElem? (Project.mem_roster_of_findLanguage hj)
      rcases known_of_mem_roster there with hk | ⟨b, hb, hr⟩
      · exact List.any_eq_true.mpr ⟨_, hk, Datum.same_text_iff.mpr rfl⟩
      · exact absurd hr (names s rfl b hb)
    · cases hi
  | int n =>
    obtain rfl : n = i := Except.ok.inj hi
    have counts := counts_projectAfter cfg p (indices n rfl)
    have there := counts.indices _ _ (Project.roster_of_language hl)
    have whole : (n.toNat : Int) = n := Int.toNat_of_nonneg (by simpa [isReference, isIndex,
      Datum.isText] using hd)
    exact List.any_eq_true.mpr ⟨_, there, Datum.same_int_iff.mpr whole⟩
  | _ => cases hd

/-- Every reference of a change that succeeds is known, if it can be foreseen. -/
theorem Foreseen.has {place : Nat} {done : Done} (foreseen : Foreseen cfg p changes)
    (hc : changes[place]? = some c) (ho : Operation.ofName? c.operation = some o)
    (made : Made cfg (projectAfter cfg p (changes.take place)) c o q (.ok done))
    {field : String} (hf : field ∈ languageFields) (hd : c.field? field = some d)
    (given : d.isNull = false) (kind : isReference d = true) :
    ((changes.take place).foldl Known.after (.ofProject p)).has d = true := by
  have follows : field ∈ o.required ++ o.optionalFields :=
    foreseen.used c (List.mem_of_getElem? hc) o ho field hf
      (by simpa [Change.fieldOrNull, hd] using given)
  obtain ⟨i, l, hi, hl⟩ : ∃ i l,
      languageOf (projectAfter cfg p (changes.take place)) d = .ok i ∧
        (projectAfter cfg p (changes.take place)).language i = .ok l := by
    simp only [languageFields, List.mem_cons, List.not_mem_nil, or_false] at hf
    rcases hf with rfl | rfl
    · obtain ⟨i, hi, ⟨rfl, hn⟩ | ⟨l, hl⟩⟩ := made_language made follows hd given
      · obtain ⟨l, hl⟩ := foreseen.removed place c hc ho i hn
        exact ⟨i, l, hi, hl⟩
      · exact ⟨i, l, hi, hl⟩
    · exact made_ancestor made follows hd given
  refine has_of_live kind hi hl ?_ ?_
  · rintro s rfl
    exact foreseen.names place c hc field hf s hd
  · rintro n rfl
    exact foreseen.indices place c hc field hf n hd

/-- Where every change of a request succeeds and its languages can be foreseen, a check does not
report that a language is missing. It returns, unless it shows a number that cannot be written. -/
theorem succeeding_known {s : Session} (request : Request)
    (succeed : ∀ x ∈ (request.run s false false).2.changes, x.success = true)
    (foreseen : Foreseen s.config s.project request.changes) :
    match request.check (some s.project) with
    | .ok result => ∀ e ∈ result.errors, ∀ reference, e.message ≠ notFoundMessage reference
    | .error e => e = .number .unwritable := by
  have said {place : Nat} {c : Change} (hc : request.changes[place]? = some c) :
      match complaints (knownAfter (some (s.project, .ofProject s.project))
        (request.changes.take place)) c with
      | .ok (errors, _) => Elsewhere errors
      | .error e => e = .number .unwritable := by
    have success := succeed _ (List.mem_of_getElem? (by
      rw [runIn_changes, runAll_getElem?, hc]
      rfl))
    obtain ⟨o, done, ho, hd⟩ := runChange_success_iff.mp success
    exact complaints_of_made ho (made_of_apply hd) fun field hf d hd given kind =>
      foreseen.has hc ho (made_of_apply ‹_›) hf hd given kind
  have checks : request.check (some s.project) =
      checkFrom (some (s.project, .ofProject s.project)) 0 request.changes := rfl
  rw [checks]
  cases checked : checkFrom (some (s.project, .ofProject s.project)) 0 request.changes with
  | error e =>
    obtain ⟨place, c, hc, he⟩ := of_checkFrom_error checked
    simpa only [he] using said hc
  | ok result =>
    intro e he reference same
    obtain ⟨place, c, errors, warnings, hc, hs, listed⟩ := of_mem_errors checked he
    have other : Elsewhere errors := by simpa only [hs] using said hc
    exact other _ listed (by simpa [same] using head_notFoundMessage reference)

/-- A request that adds a language, renames the old one, refers to both, and adds a part of speech
whose name is a number. -/
def foretold : Request :=
  ⟨[⟨"add_language", [("name", "Anta")], some 2⟩,
    ⟨"rename_language", [("language", .int 0), ("name", "Old")], some 3⟩,
    ⟨"set_ancestor", [("language", "Anta"), ("ancestor", .int 0)], some 4⟩,
    ⟨"add_pos", [("name", .int 7), ("abbr", "n")], some 5⟩], .null, .null, .null⟩

theorem foreseen_foretold : Foreseen .default bare foretold.changes := by
  constructor
  · intro c hc o ho field hf given
    simp only [foretold, List.mem_cons, List.not_mem_nil, or_false] at hc
    simp only [languageFields, List.mem_cons, List.not_mem_nil, or_false] at hf
    rcases hc with rfl | rfl | rfl | rfl <;> cases ho <;> rcases hf with rfl | rfl
    all_goals first | exact absurd given (by decide) | decide
  · intro place c hc field hf s hs b hb renames
    have old : s = "Old" := by
      have brought : b.field? "name" = some (.text s) := renames.2
      have listed := List.mem_of_mem_take hb
      simp only [foretold, List.mem_cons, List.not_mem_nil, or_false] at listed
      rcases listed with rfl | rfl | rfl | rfl
      all_goals first | exact absurd renames.1 (by decide) | (cases brought; rfl)
    subst old
    have listed := List.mem_of_getElem? hc
    simp only [foretold, List.mem_cons, List.not_mem_nil, or_false] at listed
    simp only [languageFields, List.mem_cons, List.not_mem_nil, or_false] at hf
    rcases listed with rfl | rfl | rfl | rfl <;> rcases hf with rfl | rfl
    all_goals exact absurd (congrArg (·.bind Datum.text?) hs) (by decide)
  · intro place c hc field hf n hn b hb adds
    have listed := List.mem_of_mem_take hb
    simp only [foretold, List.mem_cons, List.not_mem_nil, or_false] at listed
    rcases listed with rfl | rfl | rfl | rfl
    · exact ⟨"Anta", rfl⟩
    all_goals exact absurd adds (by decide)
  · intro place c hc removes
    have listed := List.mem_of_getElem? hc
    simp only [foretold, List.mem_cons, List.not_mem_nil, or_false] at listed
    rcases listed with rfl | rfl | rfl | rfl <;> exact absurd removes (by decide)

theorem succeeding_known_foretold :
    (∀ x ∈ (foretold.run (.ofProject bare .default) false false).2.changes, x.success = true) ∧
      Foreseen .default bare foretold.changes ∧
      ∃ result, foretold.check (some bare) = .ok result ∧ result.errors ≠ [] ∧
        ∀ e ∈ result.errors, ∀ reference, e.message ≠ notFoundMessage reference := by
  have succeed : ∀ x ∈ (foretold.run (.ofProject bare .default) false false).2.changes,
      x.success = true := by decide
  have known := succeeding_known (s := .ofProject bare .default) foretold succeed foreseen_foretold
  exact ⟨succeed, foreseen_foretold, _, rfl, by decide, known⟩

/-- A request that renames a language and refers to it by its new name. -/
def renamerText : String :=
  "changes:\n- \x7boperation: rename_language, language: 0, name: Anta\x7d\n"
    ++ "- \x7boperation: set_ancestor, language: Anta\x7d\n"

/-- Both changes succeed, and the check reports that the language is missing. -/
theorem succeeding_unknown_renamed :
    ∃ r result, ofText renamerText = .ok r ∧
      (∀ x ∈ (r.run (.ofProject bare .default) false false).2.changes, x.success = true) ∧
      r.check (some bare) = .ok result ∧
      ∃ e ∈ result.errors, e.message = notFoundMessage "'Anta'" := by
  have outcome : (match ofText renamerText with
      | .ok r => (match r.check (some bare) with
        | .ok result =>
          (r.run (.ofProject bare .default) false false).2.changes.all (·.success) &&
            result.errors.any (·.message == notFoundMessage "'Anta'")
        | .error _ => false)
      | .error _ => false) = true := by
    decide +kernel
  split at outcome
  · rename_i r hr
    split at outcome
    · rename_i result hc
      simp only [Bool.and_eq_true, List.all_eq_true, List.any_eq_true, beq_iff_eq] at outcome
      exact ⟨r, result, hr, outcome.1, hc, outcome.2⟩
    · simp at outcome
  · simp at outcome

end Neogrammar.Request
