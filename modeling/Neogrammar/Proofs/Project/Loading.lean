import Neogrammar.Proofs.Json.Overlong
import Neogrammar.Proofs.SoundChange.Refused
import Neogrammar.Proofs.Yaml.Faulty
import Neogrammar.Project.File

/-!
# What a file comes to

A file holds a project, or it is refused with an error that names the file or what is wrong with its
data. Three kinds of cause are not reported so: what spoils a text though its notation is in order,
an index that is infinite, and a rule whose pattern or template is refused for no fault of its
notation.
-/
namespace Neogrammar

variable {α : Type} {d : Datum} {e : Error}

/-! ## Stray errors -/

/-- Errors that are not taken for a fault of the data. -/
def Error.IsStray : Error → Prop
  | .repetitionTooLarge | .codeTooLarge | .unknownGroup _ | .noGrapheme => True
  | .number .infinite => True
  | _ => False

/-- An error that says what is wrong with the data. -/
def ImportError.isReported : ImportError → Bool
  | .other _ => false
  | _ => true

theorem ImportError.of_not_reported (e : Error) :
    (ofError e).isReported ∨ e.IsStray ∧ ofError e = .other e := by
  unfold ofError
  split
  · exact .inl rfl
  · split
    all_goals first | exact .inr ⟨trivial, rfl⟩ | exact .inl rfl

/-- A stray error of a computation is justified. -/
abbrev Strays (P : Error → Prop) (x : Except Error α) : Prop :=
  FailsOnly (fun e => e.IsStray → P e) x

/-- A computation without stray errors. -/
abbrev Tame (x : Except Error α) : Prop := Strays (fun _ => False) x

variable {P Q : Error → Prop} {x : Except Error α}

theorem Tame.strays (h : Tame x) : Strays P x := h.mono fun _ tame stray => (tame stray).elim

theorem Strays.mono (h : Strays P x) (hpq : ∀ e, P e → Q e) : Strays Q x :=
  FailsOnly.mono h fun _ p stray => hpq _ (p stray)

namespace Datum

theorem tame_written (d : Datum) : Tame d.written := by
  unfold written
  split
  · exact .ok _
  · exact .error id

theorem tame_need (d : Datum) (key : String) : Tame (d.need key) := by
  unfold need
  split
  · split
    · exact .ok _
    · exact .error id
  · exact .error id

theorem tame_get? (d : Datum) (key : String) : Tame (d.get? key) := by
  unfold get?
  split
  · exact .ok _
  · exact .error id

theorem tame_needText (d : Datum) (key : String) : Tame (d.needText key) :=
  (d.tame_need key).bind fun v _ => v.tame_written

theorem tame_textOr (d : Datum) (key fallback : String) : Tame (d.textOr key fallback) := by
  refine (d.tame_get? key).bind fun v _ => ?_
  cases v with
  | none => exact .ok _
  | some v => exact v.tame_written

theorem tame_elementsAt (d : Datum) (key : String) : Tame (d.elementsAt key) := by
  refine (d.tame_get? key).bind fun v _ => ?_
  cases v with
  | none => exact .ok _
  | some v =>
    dsimp only
    split
    · exact .ok _
    · split
      · exact .ok _
      · exact .error id

theorem tame_mapAt (d : Datum) (key : String) : Tame (d.mapAt key) := by
  refine (d.tame_get? key).bind fun v _ => ?_
  cases v with
  | none => exact .ok _
  | some v =>
    dsimp only
    split <;> exact .ok _

/-- The value of a number without bound. -/
def IsInfinite (d : Datum) : Prop := ∃ negative, d = .real (.infinite negative)

theorem tame_wholeOfText (s : String) : Tame (wholeOfText s) := by
  unfold wholeOfText
  split
  · exact .ok _
  · exact .error id
  · exact .error id

/-- Of the values that are no whole numbers, only the infinite ones are not taken for faults. -/
theorem strays_toWhole (d : Datum) :
    Strays (fun e => e = .number .infinite ∧ d.IsInfinite) d.toWhole := by
  unfold toWhole
  split
  · exact .ok _
  · exact .ok _
  · exact (tame_wholeOfText _).strays
  · exact .error nofun
  · rename_i x number
    cases x with
    | nan => exact (number rfl).elim
    | infinite negative => exact .error fun _ => ⟨rfl, negative, rfl⟩
    | finite negative significand exponent => exact .ok _
  · exact .error nofun

end Datum

/-! ## Where stray errors come from -/

/-- An ancestor or a part of speech in the data of a word is infinite. -/
inductive Word.Stray (d : Datum) : Error → Prop
  | pos {v : Datum} (there : d.get? "pos" = .ok (some v)) (infinite : v.IsInfinite) :
      Word.Stray d (.number .infinite)
  | ancestor {cs : List Datum} {c v : Datum} {key : String}
      (ancestors : d.elementsAt "ancestors" = .ok cs) (member : c ∈ cs)
      (part : key = "lang" ∨ key = "word") (there : c.need key = .ok v)
      (infinite : v.IsInfinite) : Word.Stray d (.number .infinite)

/-- The texts in the data of a plain rule. -/
structure Replace.Written (d : Datum) (r : Replace) : Prop where
  pattern : d.needText "pattern" = .ok r.pattern
  replacement : d.needText "replacement" = .ok r.replacement

/-- The data of a plain rule holds a pattern that is refused, or a template. -/
inductive Replace.Stray (d : Datum) : Error → Prop
  | pattern {r : Replace} {refusal : Pattern.Refusal} (written : Replace.Written d r)
      (refused : Pattern.parse r.pattern.toList = .error refusal) :
      Replace.Stray d (.ofRefusal r.text r.pattern refusal)
  | template {r : Replace} {compiled : Pattern.Compiled} {refusal : Pattern.Refusal}
      (written : Replace.Written d r) (parsed : Pattern.parse r.pattern.toList = .ok compiled)
      (refused : Substitution.readTemplate compiled r.replacement = .error refusal) :
      Replace.Stray d (.ofRefusal r.text r.replacement refusal)

/-- The data of a language has an infinite ancestor, or such a word or rule. -/
inductive Language.Stray (d : Datum) : Error → Prop
  | ancestor {v : Datum} (there : d.get? "ancestor" = .ok (some v)) (infinite : v.IsInfinite) :
      Language.Stray d (.number .infinite)
  | word {ws : List Datum} {w : Datum} {e : Error} (vocab : d.elementsAt "vocab" = .ok ws)
      (member : w ∈ ws) (stray : Word.Stray w e) : Language.Stray d e
  | rule {rs : List Datum} {r : Datum} {e : Error} {key : String}
      (kind : key = "surface_rules" ∨ key = "phonetic_rules") (rules : d.elementsAt key = .ok rs)
      (member : r ∈ rs) (stray : Replace.Stray r e) : Language.Stray d e

/-- The data of a project has such a language. -/
inductive Project.Stray (d : Datum) (e : Error) : Prop
  | intro {ls : List Datum} {l : Datum} (languages : d.elementsAt "languages" = .ok ls)
      (member : l ∈ ls) (stray : Language.Stray l e)

/-! ## Readers of data -/

theorem Coordinate.strays_ofData (d : Datum) :
    Strays (fun e => e = .number .infinite ∧
      ∃ key v, (key = "lang" ∨ key = "word") ∧ d.need key = .ok v ∧ v.IsInfinite)
      (Coordinate.ofData d) := by
  refine (d.tame_need "lang").strays.bind fun lang hl => ?_
  refine FailsOnly.bind ?_ fun _ _ => ?_
  · exact lang.strays_toWhole.mono fun _ h => ⟨h.1, _, _, .inl rfl, hl, h.2⟩
  refine (d.tame_need "word").strays.bind fun word hw => ?_
  refine FailsOnly.bind ?_ fun _ _ => .ok _
  exact word.strays_toWhole.mono fun _ h => ⟨h.1, _, _, .inr rfl, hw, h.2⟩

theorem Word.strays_ofData (d : Datum) : Strays (Word.Stray d) (Word.ofData d) := by
  refine (d.tame_needText _).strays.bind fun _ _ => ?_
  refine (d.tame_textOr _ _).strays.bind fun _ _ => ?_
  refine (d.tame_get? _).strays.bind fun pos hp => ?_
  refine FailsOnly.bind ?_ fun _ _ => ?_
  · refine (Datum.strays_toWhole _).mono fun e ⟨he, negative, infinite⟩ => ?_
    cases pos with
    | none => cases infinite
    | some v => exact he ▸ .pos hp ⟨negative, infinite⟩
  refine (d.tame_textOr _ _).strays.bind fun _ _ => ?_
  refine (d.tame_elementsAt _).strays.bind fun cs hcs => ?_
  refine FailsOnly.bind (FailsOnly.mapM fun c hc => ?_) fun _ _ => ?_
  · exact (Coordinate.strays_ofData c).mono fun e ⟨he, key, v, part, there, infinite⟩ =>
      he ▸ .ancestor hcs hc part there infinite
  refine (d.tame_textOr _ _).strays.bind fun _ _ => ?_
  exact (d.tame_textOr _ _).strays.bind fun _ _ => .ok _

theorem Replace.strays_ofData (d : Datum) : Strays (Replace.Stray d) (Replace.ofData d) := by
  refine (d.tame_needText _).strays.bind fun pattern hp => ?_
  refine (d.tame_needText _).strays.bind fun replacement hr => ?_
  refine FailsOnly.bind (fun e refused _ => ?_) fun _ _ => .ok _
  have written : Written d ⟨pattern, replacement⟩ := ⟨hp, hr⟩
  rcases Substitution.ofTexts_error refused with ⟨_, bad, rfl⟩ | ⟨_, _, parsed, bad, rfl⟩
  · exact .pattern written bad
  · exact .template written parsed bad

theorem SoundChange.tame_ofData (d : Datum) : Tame (SoundChange.ofData d) :=
  (d.tame_needText _).bind fun _ _ => (d.tame_needText _).bind fun _ _ =>
    (d.tame_needText _).bind fun _ _ => .ok _

theorem PartOfSpeech.tame_ofData (d : Datum) : Tame (PartOfSpeech.ofData d) :=
  (d.tame_needText _).bind fun _ _ => (d.tame_needText _).bind fun _ _ => .ok _

theorem Categories.tame_add (t : Categories) (key content : Datum) : Tame (t.add key content) := by
  unfold add
  split
  · exact .error id
  · split
    · exact .error id
    · split
      · exact .error id
      · split
        · exact .error id
        · split
          · exact .error id
          · exact .ok _

theorem Categories.tame_ofEntries (es : List (Datum × Datum)) (t : Categories) :
    Tame (ofEntries es t) := by
  induction es generalizing t with
  | nil => exact .ok _
  | cons e rest ih => exact (t.tame_add e.1 e.2).bind fun _ _ => ih _

theorem SoundChanges.tame_ofData (d : Datum) : Tame (SoundChanges.ofData d) := by
  refine (d.tame_mapAt _).bind fun categories _ => ?_
  refine FailsOnly.bind ?_ fun _ _ => ?_
  · unfold Categories.ofData
    split
    · exact Categories.tame_ofEntries _ _
    · exact .error id
  refine (d.tame_elementsAt _).bind fun rules _ => ?_
  exact (FailsOnly.mapM fun r _ => SoundChange.tame_ofData r).bind fun _ _ => .ok _

/-- What fails of some slots is the content of one. -/
theorem Slots.strays_ofItems {item : Datum → Except Error α} {items : List Datum}
    (h : ∀ d ∈ items, Strays P (item d)) : Strays P (Slots.ofItems item items) := by
  refine FailsOnly.bind (FailsOnly.mapM fun d hd => ?_) fun _ _ => .ok _
  split
  · exact .ok _
  · exact (h d hd).map

theorem Language.strays_lists (d : Datum)
    (make : Slots Word → List Replace → List Replace → Language) :
    Strays (Stray d) (do
      let vocab ← d.elementsAt "vocab"
      let vocab ← Slots.ofItems Word.ofData vocab
      let surfaceRules ← d.elementsAt "surface_rules"
      let surfaceRules ← surfaceRules.mapM Replace.ofData
      let phoneticRules ← d.elementsAt "phonetic_rules"
      let phoneticRules ← phoneticRules.mapM Replace.ofData
      pure (make vocab surfaceRules phoneticRules)) := by
  have rules {key : String} (kind : key = "surface_rules" ∨ key = "phonetic_rules")
      {rs : List Datum} (hrs : d.elementsAt key = .ok rs) :
      Strays (Stray d) (rs.mapM Replace.ofData) :=
    FailsOnly.mapM fun r member =>
      (Replace.strays_ofData r).mono fun _ stray => .rule kind hrs member stray
  refine (d.tame_elementsAt _).strays.bind fun ws hws => ?_
  refine FailsOnly.bind (Slots.strays_ofItems fun w member => ?_) fun _ _ => ?_
  · exact (Word.strays_ofData w).mono fun _ stray => .word hws member stray
  refine (d.tame_elementsAt _).strays.bind fun rs hrs => ?_
  refine (rules (.inl rfl) hrs).bind fun _ _ => ?_
  refine (d.tame_elementsAt _).strays.bind fun rs hrs => ?_
  exact (rules (.inr rfl) hrs).bind fun _ _ => .ok _

theorem Language.strays_ofData (d : Datum) : Strays (Language.Stray d) (Language.ofData d) := by
  refine (d.tame_mapAt _).strays.bind fun changes _ => ?_
  refine (SoundChanges.tame_ofData _).strays.bind fun _ _ => ?_
  refine (d.tame_get? _).strays.bind fun ancestor ha => ?_
  refine (d.tame_needText _).strays.bind fun _ _ => ?_
  dsimp only
  split
  · exact strays_lists d _
  · exact strays_lists d _
  · rename_i a _
    refine FailsOnly.bind (FailsOnly.map ?_) fun _ _ => strays_lists d _
    exact a.strays_toWhole.mono fun e ⟨he, infinite⟩ => he ▸ .ancestor ha infinite

theorem Project.strays_ofItems (d : Datum) : Strays (Project.Stray d) (ofItems d) := by
  refine (d.tame_elementsAt _).strays.bind fun languages hl => ?_
  refine FailsOnly.bind (Slots.strays_ofItems fun l member => ?_) fun _ _ => ?_
  · exact (Language.strays_ofData l).mono fun _ stray => .intro hl member stray
  refine (d.tame_elementsAt _).strays.bind fun pos _ => ?_
  exact (Slots.strays_ofItems fun p _ => (PartOfSpeech.tame_ofData p).strays).bind fun _ _ => .ok _

/-! ## Files -/

namespace Project

/-- Errors that are no refusals of a file that is there, each with its cause. -/
inductive Unreported (path text : String) : FileError → Prop
  /-- A YAML text is spoiled in notation that is in order. -/
  | yaml {f : Yaml.Fault} (format : Format.ofPath path = .yaml) (cause : Yaml.Escapes text f) :
      Unreported path text (.fault f)
  /-- A JSON text has a numeral past the digit limit. -/
  | json {n : Nat} (format : Format.ofPath path = .json)
      (cause : Json.Overlong text.toList (.tooLong n)) : Unreported path text (.tooLong n)
  /-- The version cannot be written. -/
  | version {es : List (Datum × Datum)} {v : Datum} (data : readText path text = .ok (.map es))
      (there : Datum.field? "version" es = some v) (unwritable : v.isWritable = false) :
      Unreported path text (.content (.other (.number .unwritable)))
  /-- A language of the data has an infinite index, or a rule that is refused without a fault. -/
  | data {d : Datum} {e : Error} (data : readText path text = .ok d) (stray : e.IsStray)
      (cause : Project.Stray d e) : Unreported path text (.content (.other e))

end Project

/-- A refusal of a file that is there. -/
def FileError.isReported : FileError → Bool
  | .malformed _ _ => true
  | .content cause => cause.isReported
  | _ => false

namespace Project

theorem reported_readText (path text : String) :
    FailsOnly (fun e => e.isReported ∨ Unreported path text e) (readText path text) := by
  unfold readText
  split
  · rename_i format
    split
    · exact .ok _
    · exact .error (.inl rfl)
    · exact .error (.inl rfl)
    · rename_i f other unprintable hf
      refine .error (.inr (.yaml format ?_))
      -- the faults that are reported are those of the notation and of the characters
      cases allowed : text.toList.all Yaml.isAllowed with
      | true =>
        refine (Yaml.read_escapes allowed f hf).resolve_left ?_
        rintro ⟨line, rfl⟩
        exact other line rfl
      | false =>
        rw [Yaml.read_unprintable allowed] at hf
        cases hf
        exact (unprintable rfl).elim
  · rename_i format
    have fails := Json.fails_read text
    split
    · exact .ok _
    · exact .error (.inl rfl)
    · rename_i n hn
      refine .error (.inr (.json format ?_))
      exact (fails _ hn).resolve_left nofun

theorem reported_ofData {path text : String} {d : Datum} (data : readText path text = .ok d) :
    FailsOnly (fun e => e.isReported ∨ Unreported path text (.content e)) (ofData d) := by
  unfold ofData
  split
  · rename_i es
    split
    · rename_i e he
      cases there : Datum.field? "version" es with
      | none =>
        rw [there] at he
        cases he
      | some v =>
        rw [there, Option.elim_some, Datum.written] at he
        split at he <;> cases he
        rename_i unwritable
        exact .error (.inr (.version data there (by simpa using unwritable)))
    · split
      · exact .error (.inl rfl)
      · split
        · exact .ok _
        · rename_i e he
          have cause := strays_ofItems _ e he
          rcases ImportError.of_not_reported e with reported | ⟨stray, other⟩
          · exact .error (.inl reported)
          · rw [other]
            exact .error (.inr (.data data stray (cause stray)))
  · exact .error (.inl rfl)

theorem reported_ofText (path text : String) :
    FailsOnly (fun e => e.isReported ∨ Unreported path text e) (ofText path text) := by
  refine (reported_readText path text).bind fun d hd => ?_
  split
  · exact .ok _
  · rename_i e he
    exact .error (reported_ofData hd e he)

/-- A file that is there is read as a project, or refused as one, or fails for a cause that stands in
it. -/
theorem load_outcome (files : Files) (path : String) :
    match files.read? path with
    | none => load files path = .error (.noFile (Path.normal path))
    | some text => (∃ p, load files path = .ok p) ∨
        (∃ e, load files path = .error e ∧ e.isReported) ∨
          ∃ e, load files path = .error e ∧ Unreported path text e := by
  cases there : files.read? path with
  | none => rw [load, there]
  | some text =>
    have here : load files path = ofText path text := by rw [load, there]
    cases h : ofText path text with
    | ok p => exact .inl ⟨p, here.trans h⟩
    | error e =>
      rcases reported_ofText path text e h with reported | cause
      · exact .inr (.inl ⟨e, here.trans h, reported⟩)
      · exact .inr (.inr ⟨e, here.trans h, cause⟩)

/-- A language with an infinite ancestor. -/
def boundless : String := "languages:\n- name: Ayi\n  ancestor: .inf\n"

/-- An infinite index is neither read nor taken for a fault of the data. -/
theorem ofText_boundless : ¬FailsOnly (·.isReported) (ofText "isles.yaml" boundless) := by
  decide +kernel

end Project
end Neogrammar
