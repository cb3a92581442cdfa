import Neogrammar.Proofs.Coordinate
import Neogrammar.Request.Check
import Neogrammar.Request.Run

/-!
# Two spellings of a coordinate

An ancestor of a word may be given as a text or as a map of its two numbers. A run makes the same of
both. A check takes a text with any numbers, but a map only with numbers that are not negative, so
it makes the same of both where they are not.
-/
namespace Neogrammar.Request

/-- The spellings of a coordinate: its text, and a map of its language and its word. -/
inductive Spells (c : Coordinate) : Datum → Prop
  | text : Spells c (.text c.text)
  | numbers {es : List (Datum × Datum)} (lang : Datum.field? "lang" es = some (.int c.lang))
      (word : Datum.field? "word" es = some (.int c.word)) : Spells c (.map es)

/-- The same datum, or another spelling of a coordinate of some kind. -/
inductive Respelled (fits : Coordinate → Prop) : Datum → Datum → Prop
  | same (d : Datum) : Respelled fits d d
  | spelled {c : Coordinate} {d e : Datum} (fit : fits c) (before : Spells c d)
      (after : Spells c e) : Respelled fits d e

/-- The same field, or ancestors of which some are spelled otherwise. -/
inductive FieldRespelled (fits : Coordinate → Prop) : Datum × Datum → Datum × Datum → Prop
  | same (e : Datum × Datum) : FieldRespelled fits e e
  | ancestors {xs ys : List Datum} (items : List.Forall₂ (Respelled fits) xs ys) :
      FieldRespelled fits ("ancestors", .list xs) ("ancestors", .list ys)

/-- A change whose ancestors are spelled otherwise. -/
structure ChangeRespelled (fits : Coordinate → Prop) (c d : Change) : Prop where
  operation : d.operation = c.operation
  line : d.line = c.line
  fields : List.Forall₂ (FieldRespelled fits) c.fields d.fields

variable {fits : Coordinate → Prop} {c d : Change} {p : Project} {cfg : Config} {o : Operation}
  {coordinate : Coordinate} {x y : Datum} {xs ys : List Datum}

/-! ## What a field holds -/

theorem field?_respelled {es fs : List (Datum × Datum)}
    (h : List.Forall₂ (FieldRespelled fits) es fs) {name : String} (other : name ≠ "ancestors") :
    Datum.field? name fs = Datum.field? name es := by
  induction h with
  | nil => rfl
  | @cons e f es fs here _ ih =>
    cases here with
    | same e =>
      obtain ⟨k, v⟩ := e
      cases k <;> simp [Datum.field?, ih]
    | ancestors items =>
      simp [Datum.field?, other.symm, ih]

/-- The ancestors are the same, or lists of which some items are spelled otherwise. -/
theorem field?_ancestors_respelled {es fs : List (Datum × Datum)}
    (h : List.Forall₂ (FieldRespelled fits) es fs) :
    Datum.field? "ancestors" fs = Datum.field? "ancestors" es ∨
      ∃ xs ys, Datum.field? "ancestors" es = some (.list xs) ∧
        Datum.field? "ancestors" fs = some (.list ys) ∧ List.Forall₂ (Respelled fits) xs ys := by
  induction h with
  | nil => exact .inl rfl
  | @cons e _ es fs here _ ih =>
    cases here with
    | same e =>
      obtain ⟨k, v⟩ := e
      cases k with
      | text s =>
        by_cases hs : s = "ancestors"
        · exact .inl (by simp [Datum.field?, hs])
        · simpa [Datum.field?, hs] using ih
      | _ => exact ih
    | ancestors items => exact .inr ⟨_, _, rfl, rfl, items⟩

/-! ## What a run makes of a spelling -/

theorem coordinateOf_spells (short : coordinate.IsWritable) (h : Spells coordinate x) :
    coordinateOf p x = .ok coordinate := by
  cases h with
  | text => exact Coordinate.ofText_eq_ok_iff.mpr (Coordinate.written_text short)
  | numbers lang word => simp [coordinateOf, lang, word, languageOf, Datum.toWhole, pure_eq_ok]

theorem coordinatesOf_respelled
    (h : List.Forall₂ (Respelled Coordinate.IsWritable) xs ys) :
    coordinatesOf p (.list ys) = coordinatesOf p (.list xs) := by
  have each : ys.mapM (coordinateOf p) = xs.mapM (coordinateOf p) := by
    refine (mapM_congr_forall₂ (h.imp fun x y hxy => ?_)).symm
    cases hxy with
    | same => rfl
    | spelled fit before after => rw [coordinateOf_spells fit before, coordinateOf_spells fit after]
  cases h <;> simp_all [coordinatesOf, Datum.truthy, Datum.elements?]

/-- Changes that are the same but for their ancestors, which are the same coordinates. -/
structure Akin (c d : Change) : Prop where
  operation : d.operation = c.operation
  line : d.line = c.line
  others : ∀ name, name ≠ "ancestors" → d.field? name = c.field? name
  given : ∀ p, (d.field? "ancestors").mapM (coordinatesOf p) =
    (c.field? "ancestors").mapM (coordinatesOf p)
  orNone : ∀ p, coordinatesOf p (d.fieldOrNull "ancestors") =
    coordinatesOf p (c.fieldOrNull "ancestors")

theorem akin_respelled (h : ChangeRespelled Coordinate.IsWritable c d) : Akin c d where
  operation := h.operation
  line := h.line
  others := fun _ other => field?_respelled h.fields other
  given := fun p => by
    rw [Change.field?, Change.field?]
    rcases field?_ancestors_respelled h.fields with same | ⟨xs, ys, before, after, items⟩
    · rw [same]
    · rw [before, after, Option.mapM_some, Option.mapM_some, coordinatesOf_respelled items]
  orNone := fun p => by
    rw [Change.fieldOrNull, Change.field?, Change.fieldOrNull, Change.field?]
    rcases field?_ancestors_respelled h.fields with same | ⟨xs, ys, before, after, items⟩
    · rw [same]
    · rw [before, after]
      exact coordinatesOf_respelled items

theorem Akin.fieldOrNull (h : Akin c d) {name : String} (other : name ≠ "ancestors") :
    d.fieldOrNull name = c.fieldOrNull name := by
  rw [Change.fieldOrNull, h.others name other, Change.fieldOrNull]

theorem Akin.need (h : Akin c d) {name : String} (other : name ≠ "ancestors") :
    need d name = need c name := by
  rw [Request.need, h.others name other, Request.need]

theorem Akin.needLanguage (h : Akin c d) {name : String} (other : name ≠ "ancestors") :
    needLanguage p d name = needLanguage p c name := by
  rw [Request.needLanguage, h.need other, Request.needLanguage]

theorem Akin.enteredWord (h : Akin c d) : enteredWord p d = enteredWord p c := by
  simp (disch := decide) only [Request.enteredWord, h.need, h.others, h.orNone]

theorem Akin.wordChangeOf (h : Akin c d) : wordChangeOf p d = wordChangeOf p c := by
  simp (disch := decide) only [Request.wordChangeOf, h.others, h.given, changed]

/-- No operation makes a difference between changes that are akin. -/
theorem Akin.apply (h : Akin c d) : apply p cfg o d = apply p cfg o c := by
  cases o with
  | addWord => simp (disch := decide) only [Request.apply, addWord, h.needLanguage, h.enteredWord]
  | alterWord =>
    simp (disch := decide) only [Request.apply, alterWord, h.needLanguage, h.wordChangeOf, h.need]
  | rule kind action =>
    cases action <;> simp (disch := decide) only [Request.apply, addRule, alterRule, insertRule,
      removeRule, h.needLanguage, h.need]
  | _ =>
    simp (disch := decide) only [Request.apply, addLanguage, renameLanguage, removeLanguage,
      setAncestor, ancestorOf, addPos, alterPos, removePos, removeWord, addCategory,
      removeCategory, derive, derivationOf, morph, morphLanguageOf, h.needLanguage, h.need,
      h.fieldOrNull]

theorem Akin.runChange (h : Akin c d) (index : Nat) :
    runChange p cfg index d = runChange p cfg index c := by
  simp only [Request.runChange, h.operation, h.line, h.apply, failed]

theorem runAll_akin {cs ds : List Change} (h : List.Forall₂ Akin cs ds) (index : Nat) :
    runAll cfg p index ds = runAll cfg p index cs := by
  induction h generalizing p index with
  | nil => rfl
  | cons here _ ih => simp only [runAll, here.runChange, ih]

theorem runUntilFailure_akin {cs ds : List Change} (h : List.Forall₂ Akin cs ds) (index : Nat) :
    runUntilFailure cfg p index ds = runUntilFailure cfg p index cs := by
  induction h generalizing p index with
  | nil => rfl
  | cons here _ ih => simp only [runUntilFailure, here.runChange, ih]

theorem run_akin {r q : Request} (h : List.Forall₂ Akin r.changes q.changes) (s : Session)
    (dryRun atomic : Bool) : q.run s dryRun atomic = r.run s dryRun atomic := by
  simp only [run, runIn, tally, runAll_akin h, runUntilFailure_akin h, h.length_eq]

/-! ## What a check makes of a spelling -/

/-- A map is complained about exactly if one of its numbers is negative. -/
theorem coordinateComplaint_numbers {es : List (Datum × Datum)}
    (lang : Datum.field? "lang" es = some (.int coordinate.lang))
    (word : Datum.field? "word" es = some (.int coordinate.word)) :
    coordinateComplaint (.map es) = .ok [] ↔ 0 ≤ coordinate.lang ∧ 0 ≤ coordinate.word := by
  simp only [coordinateComplaint, lang, word, Option.getD_some, isIndex]
  by_cases positive : 0 ≤ coordinate.lang ∧ 0 ≤ coordinate.word
  · simp [positive]
  · have negative : (decide (0 ≤ coordinate.lang) && decide (0 ≤ coordinate.word)) = false := by
      simpa using positive
    rw [negative, if_neg Bool.false_ne_true, map_eq_ok_iff]
    simp [positive]

theorem coordinateComplaint_text (short : coordinate.IsWritable) :
    coordinateComplaint (.text coordinate.text) = .ok [] := by
  rw [coordinateComplaint, Coordinate.ofText_eq_ok_iff.mpr (Coordinate.written_text short)]

/-- A coordinate that may be an address: its numbers are not negative and not too long. -/
def IsAddress (c : Coordinate) : Prop := c.IsWritable ∧ 0 ≤ c.lang ∧ 0 ≤ c.word

theorem coordinateComplaint_spells (address : IsAddress coordinate) (h : Spells coordinate x) :
    coordinateComplaint x = .ok [] := by
  cases h with
  | text => exact coordinateComplaint_text address.1
  | numbers lang word => exact (coordinateComplaint_numbers lang word).mpr address.2

theorem ancestorComplaints_respelled (h : ChangeRespelled IsAddress c d) :
    ancestorComplaints d = ancestorComplaints c := by
  rw [ancestorComplaints, ancestorComplaints, Change.field?, Change.field?]
  rcases field?_ancestors_respelled h.fields with same | ⟨xs, ys, before, after, items⟩
  · rw [same]
  · rw [before, after]
    dsimp only
    rw [mapM_congr_forall₂ (items.imp fun x y hxy => ?_)]
    cases hxy with
    | same => rfl
    | spelled fit before after =>
      rw [coordinateComplaint_spells fit before, coordinateComplaint_spells fit after]

theorem ancestors_not_required (o : Operation) : "ancestors" ∉ o.required := by
  cases o with
  | rule kind action => cases kind <;> cases action <;> decide
  | _ => decide

theorem Akin.missingFields (h : Akin c d) : missingFields o d = missingFields o c := by
  rw [Request.missingFields, Request.missingFields, List.filter_congr fun name hn => ?_]
  rw [h.fieldOrNull fun same => ancestors_not_required o (same ▸ hn)]

theorem Akin.formComplaints (h : Akin c d)
    (ancestors : ancestorComplaints d = ancestorComplaints c) :
    formComplaints o d = formComplaints o c := by
  simp (disch := decide) only [Request.formComplaints, h.missingFields, ancestors,
    patternComplaints, kindComplaints, unlessNull, ifGiven, textFields, List.flatMap_cons,
    List.flatMap_nil, categoryComplaints, keyComplaints, contentComplaints,
    environmentComplaints, derivationComplaints, h.others, h.fieldOrNull]

theorem Akin.complaints (h : Akin c d) (ancestors : ancestorComplaints d = ancestorComplaints c)
    (known : Option (Project × Known)) : complaints known d = complaints known c := by
  simp (disch := decide) only [Request.complaints, h.operation, h.formComplaints ancestors,
    languageComplaint, posWarnings, h.fieldOrNull]

theorem Akin.after (h : Akin c d) (k : Known) : k.after d = k.after c := by
  simp (disch := decide) only [Known.after, h.operation, h.others]

theorem ChangeRespelled.mono {gits : Coordinate → Prop} (h : ChangeRespelled fits c d)
    (mono : ∀ coordinate, fits coordinate → gits coordinate) : ChangeRespelled gits c d where
  operation := h.operation
  line := h.line
  fields := h.fields.imp fun e f hef => by
    cases hef with
    | same => exact .same e
    | ancestors items =>
      refine .ancestors (items.imp fun x y hxy => ?_)
      cases hxy with
      | same => exact .same x
      | spelled fit before after => exact .spelled (mono _ fit) before after

theorem akin_of_address (h : ChangeRespelled IsAddress c d) : Akin c d :=
  akin_respelled (h.mono fun _ address => address.1)

theorem checkFrom_respelled {cs ds : List Change}
    (h : List.Forall₂ (ChangeRespelled IsAddress) cs ds) (known : Option (Project × Known))
    (index : Nat) : checkFrom known index ds = checkFrom known index cs := by
  induction h generalizing known index with
  | nil => rfl
  | cons here _ ih =>
    have akin := akin_of_address here
    simp only [checkFrom, akin.complaints (ancestorComplaints_respelled here), akin.after,
      akin.operation, akin.line, ih]

/-! ## Both -/

/-- A request of which some coordinates are spelled otherwise. -/
def IsRespelled (fits : Coordinate → Prop) (r q : Request) : Prop :=
  List.Forall₂ (ChangeRespelled fits) r.changes q.changes

/-- Runs do not depend on how coordinates are spelled, whatever their numbers. Checks do not where
the numbers are not negative; where one is, nothing is wrong with the text, and with the map there
is. -/
theorem spellings_alike (r q : Request) (s : Session) (dryRun atomic : Bool)
    (p : Option Project) :
    (IsRespelled Coordinate.IsWritable r q → q.run s dryRun atomic = r.run s dryRun atomic) ∧
    (IsRespelled IsAddress r q → q.validate p = r.validate p) ∧
    ∀ (c : Coordinate) (es : List (Datum × Datum)), c.IsWritable →
      Datum.field? "lang" es = some (.int c.lang) → Datum.field? "word" es = some (.int c.word) →
      coordinateComplaint (.text c.text) = .ok [] ∧
        (coordinateComplaint (.map es) = .ok [] ↔ 0 ≤ c.lang ∧ 0 ≤ c.word) := by
  refine ⟨fun h => run_akin (h.imp fun _ _ => akin_respelled) s dryRun atomic, fun h => ?_,
    fun c es short lang word =>
      ⟨coordinateComplaint_text short, coordinateComplaint_numbers lang word⟩⟩
  rw [validate, validate, check, check, checkFrom_respelled h]

/-- The map of the two numbers of a coordinate. -/
def numbersOf (c : Coordinate) : Datum := .map [("lang", c.lang), ("word", c.word)]

/-- A request that enters a word with one ancestor. -/
def entering (ancestor : Datum) : Request :=
  ⟨[⟨"add_word", [("language", (0 : Int)), ("mnemonic", "tafa"), ("gloss", "sun"),
      ("pos", (0 : Int)), ("ancestors", .list [ancestor])], some 2⟩],
    .null, .null, .null⟩

theorem entering_respelled {c : Coordinate} (fit : fits c) :
    IsRespelled fits (entering (numbersOf c)) (entering c.text) := by
  have item : List.Forall₂ (Respelled fits) [numbersOf c] [.text c.text] :=
    .cons (.spelled fit (.numbers rfl rfl) .text) .nil
  have fields : List.Forall₂ (FieldRespelled fits) _ _ :=
    .cons (.same ("language", (0 : Int))) <| .cons (.same ("mnemonic", "tafa")) <|
      .cons (.same ("gloss", "sun")) <| .cons (.same ("pos", (0 : Int))) <|
      .cons (.ancestors item) .nil
  exact .cons ⟨rfl, rfl, fields⟩ .nil

/-- The first word of the second language, and the one before it, which there is not. -/
theorem spellings_alike_isles :
    IsRespelled IsAddress (entering (numbersOf ⟨1, 0⟩)) (entering "1:0") ∧
      (entering "1:0").validate none = (entering (numbersOf ⟨1, 0⟩)).validate none ∧
      IsRespelled Coordinate.IsWritable (entering (numbersOf ⟨1, -1⟩)) (entering "1:-1") ∧
      (entering "1:-1").run (.ofProject .empty .default) false false =
        (entering (numbersOf ⟨1, -1⟩)).run (.ofProject .empty .default) false false ∧
      coordinateComplaint "1:-1" = .ok [] ∧ coordinateComplaint (numbersOf ⟨1, -1⟩) ≠ .ok [] := by
  have first : (⟨1, 0⟩ : Coordinate).text = "1:0" := by decide
  have before : (⟨1, -1⟩ : Coordinate).text = "1:-1" := by decide
  have short : (⟨1, -1⟩ : Coordinate).IsWritable := ⟨rfl, rfl⟩
  have address : IsAddress ⟨1, 0⟩ := ⟨⟨rfl, rfl⟩, by decide, by decide⟩
  have checked := entering_respelled address
  have stored := entering_respelled short
  rw [first] at checked
  rw [before] at stored
  have alike (x y : Datum) :=
    spellings_alike (entering x) (entering y) (.ofProject .empty .default) false false none
  obtain ⟨ran, -, complaints⟩ := alike (numbersOf ⟨1, -1⟩) "1:-1"
  obtain ⟨ofText, ofNumbers⟩ := complaints ⟨1, -1⟩
    [("lang", (1 : Int)), ("word", (-1 : Int))] short rfl rfl
  rw [before] at ofText
  exact ⟨checked, (alike _ _).2.1 checked, stored, ran stored, ofText,
    fun none => absurd (ofNumbers.mp none).2 (by decide)⟩

/-- Of the same two numbers a check complains as a map and not as a text. -/
theorem validate_negative :
    ((entering (numbersOf ⟨-1, 0⟩)).validate none).toOption.map
        (fun result => result.errors.map (·.field)) = some ["ancestors"] ∧
      ((entering "-1:0").validate none).toOption.map
        (fun result => result.errors.map (·.field)) = some [] := by
  decide +kernel

end Neogrammar.Request
