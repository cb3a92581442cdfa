import Neogrammar.Proofs.Project.Kept
import Neogrammar.Proofs.Project.ReadBack
import Neogrammar.Proofs.Request.Changes
import Neogrammar.Proofs.Request.Complaints
import Neogrammar.Proofs.Request.Runs

/-!
# Requests that were checked

A check that finds no fault has seen a text in every field that becomes a name, a part of a word or
a pattern. It does not look at the target and replacement of a sound change; a request with texts
there keeps a project storable, whether its changes succeed or fail.
-/
namespace Neogrammar.Request

variable {p q : Project} {c : Change} {o : Operation}

/-! ## What a check grants -/

/-- Every field that must be a text is one, if it is there. -/
def TextFields (c : Change) : Prop :=
  ∀ name ∈ textFields, ∀ d, c.field? name = some d → d.isText = true

/-- A check without errors has seen texts in every change. -/
theorem textFields_of_checkFrom {known : Option (Project × Known)} {index : Nat}
    {changes : List Change} {result : CheckResult} (h : checkFrom known index changes = .ok result)
    (hv : result.errors = []) : ∀ c ∈ changes, TextFields c := by
  intro c hc
  obtain ⟨k, hk⟩ := List.mem_iff_getElem?.mp hc
  obtain ⟨o, -, formed, -⟩ := accepted_of_checkFrom h hv hk
  exact (fitting_of_kindComplaints formed.kinds).texts

/-- The target and the replacement are texts, if they are there. -/
def TextSides (c : Change) : Prop :=
  ∀ name ∈ ["target", "replacement"], ∀ d, c.field? name = some d → d.isText = true

theorem TextFields.need {name : String} {d : Datum} (hc : TextFields c) (h : need c name = .ok d)
    (hn : name ∈ textFields) : d.isText = true :=
  hc name hn d (need_eq_ok_iff.mp h)

theorem TextSides.need {name : String} {d : Datum} (hc : TextSides c) (h : need c name = .ok d)
    (hn : name ∈ ["target", "replacement"]) : d.isText = true :=
  hc name hn d (need_eq_ok_iff.mp h)

theorem TextFields.changed {name : String} (hc : TextFields c) (hn : name ∈ textFields) (d : Datum)
    (h : changed c name = some d) : d.isText = true :=
  hc name hn d (Option.filter_eq_some_iff.mp h).1

theorem storable_enteredWord {w : Word} (hc : TextFields c) (h : enteredWord p c = .ok w) :
    w.Storable := by
  obtain ⟨mnemonic, hm, h⟩ := bind_eq_ok_iff.mp h
  obtain ⟨gloss, hg, h⟩ := bind_eq_ok_iff.mp h
  obtain ⟨pos, -, h⟩ := bind_eq_ok_iff.mp h
  obtain ⟨pos, -, h⟩ := bind_eq_ok_iff.mp h
  obtain ⟨ancestors, -, h⟩ := bind_eq_ok_iff.mp h
  cases h
  have note : ((c.field? "note").getD "").isText = true := by
    cases hn : c.field? "note" with
    | none => rfl
    | some d => exact hc "note" (by simp [textFields]) d hn
  exact Word.storable_entered (hc.need hm (by simp [textFields]))
    (hc.need hg (by simp [textFields])) note

theorem storable_wordChangeOf {change : WordChange} (hc : TextFields c)
    (h : wordChangeOf p c = .ok change) : change.Storable := by
  obtain ⟨pos, -, h⟩ := bind_eq_ok_iff.mp h
  obtain ⟨ancestors, -, h⟩ := bind_eq_ok_iff.mp h
  cases h
  exact ⟨hc.changed (by simp [textFields]), hc.changed (by simp [textFields]),
    hc.changed (by simp [textFields])⟩

/-- What is done for a change with texts where they belong keeps a project storable. -/
theorem storable_made {cfg : Config} {report : Except Error Done} (hc : TextFields c)
    (hr : o.bringsSoundChange = true → TextSides c) (hp : p.Storable fun _ => True)
    (made : Made cfg p c o q report) : q.Storable fun _ => True := by
  cases made with
  | addLanguage hn => exact hp.addLanguage (hc.need hn (by simp [textFields]))
  | renameLanguage _ hn h => exact hp.renameLanguage (hc.need hn (by simp [textFields])) h
  | removeLanguage _ h => exact hp.removeLanguage h
  | setAncestor _ _ h => exact hp.setAncestor h
  | addPos hn ha =>
    exact hp.addPos (hc.need hn (by simp [textFields])) (hc.need ha (by simp [textFields]))
  | alterPos _ hn ha h =>
    exact hp.alterPos (hc.need hn (by simp [textFields])) (hc.need ha (by simp [textFields])) h
  | removePos _ h => exact hp.removePos h
  | addWord _ hw h => exact hp.addWord (storable_enteredWord hc hw) h
  | alterWord _ hw _ h => exact hp.alterWord (storable_wordChangeOf hc hw) h
  | removeWord _ _ h => exact hp.removeWord h
  | addRule _ _ _ _ h => exact hp.addRule h
  | alterRule _ _ _ _ _ h => exact hp.alterRule h
  | insertRule _ _ _ _ _ h => exact hp.insertRule h
  | removeRule _ _ _ h => exact hp.removeRule h
  | addSoundChange _ ht hrep _ h =>
    exact hp.addSoundChange ((hr rfl).need ht (by simp)) ((hr rfl).need hrep (by simp)) h
  | alterSoundChange _ _ ht hrep _ h =>
    exact hp.alterSoundChange ((hr rfl).need ht (by simp)) ((hr rfl).need hrep (by simp)) h
  | insertSoundChange _ _ ht hrep _ h =>
    exact hp.insertSoundChange ((hr rfl).need ht (by simp)) ((hr rfl).need hrep (by simp)) h
  | removeSoundChange _ _ h => exact hp.removeSoundChange h
  | addCategory _ _ _ h => exact hp.addCategory h fun _ _ _ _ _ => trivial
  | removeCategory _ _ h => exact hp.removeCategory h
  | derive => exact hp.derive
  | morph => exact hp.morphAll

/-- A change with texts where they belong keeps a project storable. -/
theorem storable_apply {cfg : Config} (hc : TextFields c)
    (hr : o.bringsSoundChange = true → TextSides c) (hp : p.Storable fun _ => True) :
    (apply p cfg o c).1.Storable fun _ => True := by
  rcases apply_cases p cfg o c with ⟨e, he⟩ | made
  · rw [he]
    exact hp
  · exact storable_made hc hr hp made

/-- A project with one language, which has no words and rules. -/
def bare : Project := ⟨⟨[some (.named "Ayi")]⟩, .empty⟩

end Neogrammar.Request
