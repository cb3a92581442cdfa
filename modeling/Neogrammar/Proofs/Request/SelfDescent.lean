import Neogrammar.Proofs.Project.SelfDescent
import Neogrammar.Proofs.Request.References

/-!
# Checked derivations from the language itself

A check refuses a derivation whose two references are equal values. Two numbers that differ are two
languages, and so are two names that differ, as each name leads to the first language that bears it.
What is left is a language that one reference calls by its index and the other by its name: such a
derivation is accepted, and refused when it is run.
-/
namespace Neogrammar.Request

variable {cfg : Config} {p : Project} {c : Change} {o : Operation} {d e : Datum} {n : Int}

/-- Two references of which one is an index, and the other the name that leads to it. -/
inductive Mixed (p : Project) (n : Int) : Datum → Datum → Prop
  | byIndex {name : String} {i : Nat} (found : p.findLanguage (.text name) = some i) (hn : n = i) :
      Mixed p n (.int n) (.text name)
  | byName {name : String} {i : Nat} (found : p.findLanguage (.text name) = some i) (hn : n = i) :
      Mixed p n (.text name) (.int n)

theorem languageOf_text_eq_ok_iff {name : String} :
    languageOf p (.text name) = .ok n ↔
      ∃ i : Nat, p.findLanguage (.text name) = some i ∧ n = i := by
  simp only [languageOf]
  cases p.findLanguage (.text name) with
  | none => simp
  | some i => simp [eq_comm]

/-- Two names that lead to one index are the same. -/
theorem findLanguage_injective {s t : String} {i : Nat} (hs : p.findLanguage (.text s) = some i)
    (ht : p.findLanguage (.text t) = some i) : s = t := by
  have first := Project.mem_roster_of_findLanguage hs
  rw [Project.mem_roster_of_findLanguage ht] at first
  cases first
  rfl

/-- Two references that are not equal values lead to one language exactly if one is its index and
the other a name that leads there. -/
theorem languageOf_both_iff (hd : isReference d = true) (he : isReference e = true)
    (apart : d.same e = false) :
    languageOf p d = .ok n ∧ languageOf p e = .ok n ↔ Mixed p n d e := by
  constructor
  · rintro ⟨first, second⟩
    cases d with
    | text s =>
      obtain ⟨i, hs, rfl⟩ := languageOf_text_eq_ok_iff.mp first
      cases e with
      | text t =>
        obtain ⟨j, ht, same⟩ := languageOf_text_eq_ok_iff.mp second
        obtain rfl := Int.ofNat.inj same
        obtain rfl := findLanguage_injective hs ht
        rw [Datum.same_text_iff.mpr rfl] at apart
        cases apart
      | int m =>
        cases second
        exact .byName hs rfl
      | _ => cases he
    | int m =>
      cases first
      cases e with
      | text t =>
        obtain ⟨j, ht, rfl⟩ := languageOf_text_eq_ok_iff.mp second
        exact .byIndex ht rfl
      | int k =>
        cases second
        rw [Datum.same_int_iff.mpr rfl] at apart
        cases apart
      | _ => cases he
    | _ => cases hd
  · rintro (⟨found, hn⟩ | ⟨found, hn⟩)
    · exact ⟨rfl, languageOf_text_eq_ok_iff.mpr ⟨_, found, hn⟩⟩
    · exact ⟨languageOf_text_eq_ok_iff.mpr ⟨_, found, hn⟩, rfl⟩

theorem notSelf_languageOf (p : Project) (d : Datum) :
    FailsOnly Error.NotSelf (languageOf p d) := by
  unfold languageOf
  split
  · split
    · exact .ok _
    · exact .error trivial
  · unfold Datum.toWhole wholeOfText
    split
    · exact .ok _
    · exact .ok _
    · split
      · exact .ok _
      · exact .error trivial
      · exact .error trivial
    · exact .error trivial
    · split
      · exact .ok _
      · exact .error trivial
    · exact .error trivial

theorem notSelf_derivationOf (p : Project) (c : Change) :
    FailsOnly Error.NotSelf (derivationOf p c) := by
  have needed (name : String) : FailsOnly Error.NotSelf (needLanguage p c name) := by
    refine .bind ?_ fun d _ => notSelf_languageOf p d
    unfold need
    split
    · exact .ok _
    · exact .error trivial
  exact (needed _).bind fun _ _ => (needed _).bind fun _ _ => .ok _

/-- A change derives a language from itself exactly if both of its references lead to it. -/
theorem apply_derive_eq_selfAncestor_iff :
    (apply p cfg .derive c).2 = .error (.selfAncestor n) ↔ derivationOf p c = .ok (n, n) := by
  change (derive p cfg c).2 = _ ↔ _
  rw [derive]
  cases found : derivationOf p c with
  | error cause =>
    refine iff_of_false (fun self => ?_) (by simp)
    cases self
    exact notSelf_derivationOf p c _ found
  | ok both =>
    obtain ⟨lang, ancestor⟩ := both
    change (p.derive cfg lang ancestor).2.map _ = _ ↔ _
    rw [map_eq_error_iff, Project.derive_eq_selfAncestor_iff, Except.ok.injEq, Prod.mk.injEq]
    constructor
    · rintro ⟨same, rfl⟩
      exact ⟨rfl, same.symm⟩
    · rintro ⟨rfl, rfl⟩
      exact ⟨rfl, rfl⟩

theorem derivationOf_eq_ok_iff (hd : c.field? "language" = some d)
    (he : c.field? "ancestor" = some e) :
    derivationOf p c = .ok (n, n) ↔ languageOf p d = .ok n ∧ languageOf p e = .ok n := by
  have both : derivationOf p c =
      languageOf p d >>= fun lang => languageOf p e >>= fun ancestor => .ok (lang, ancestor) := by
    simp only [derivationOf, needLanguage, need, hd, he, ok_bind]
    rfl
  rw [both]
  constructor
  · intro found
    obtain ⟨lang, first, found⟩ := bind_eq_ok_iff.mp found
    obtain ⟨ancestor, second, found⟩ := bind_eq_ok_iff.mp found
    cases found
    exact ⟨first, second⟩
  · rintro ⟨first, second⟩
    rw [first, ok_bind, second, ok_bind]

/-- A required field of an accepted change is there, and not null. -/
theorem Formed.field {name : String} (formed : Formed o c) (required : name ∈ o.required) :
    ∃ d, c.field? name = some d ∧ d.isNull = false := by
  have given := formed.given name required
  cases hd : c.field? name with
  | none =>
    rw [Change.fieldOrNull, hd] at given
    cases given
  | some d =>
    rw [Change.fieldOrNull, hd] at given
    exact ⟨d, rfl, given⟩

/-- The two references of an accepted derivation are not equal values. -/
theorem Formed.apart (formed : Formed .derive c) (hd : c.field? "language" = some d)
    (he : c.field? "ancestor" = some e) : d.same e = false := by
  have nothing := formed.derivation
  simp only [derivationComplaints, Change.fieldOrNull, hd, he, Option.getD_some, true_and]
    at nothing
  split at nothing
  · cases nothing
  · rename_i apart
    simpa using apart

/-- A derivation of a request that was accepted is one of a language from itself exactly if it calls
the language by its index in one place and by its name in the other, as the project then is: two
indices, or two names, never lead to one language. -/
theorem run_derives_apart {s : Session} {result : CheckResult} {place : Nat} (request : Request)
    (dryRun : Bool) (checked : request.validate (some s.project) = .ok result)
    (valid : result.isValid = true) (hc : request.changes[place]? = some c)
    (derives : Operation.ofName? c.operation = some .derive) :
    let before := projectAfter s.config s.project (request.changes.take place)
    (request.run s dryRun false).2.changes[place]? =
        some (runChange before s.config place c).2 ∧
      ∃ d e, c.field? "language" = some d ∧ c.field? "ancestor" = some e ∧
        ∀ n, (apply before s.config .derive c).2 = .error (.selfAncestor n) ↔
          Mixed before n d e := by
  obtain ⟨o, ho, formed, -⟩ :=
    accepted_of_checkFrom (check_of_validate checked) (List.isEmpty_iff.mp valid) hc
  obtain rfl : o = .derive := Option.some.inj (ho.symm.trans derives)
  obtain ⟨d, hd, given⟩ := formed.field (show "language" ∈ _ by decide)
  obtain ⟨e, he, given'⟩ := formed.field (show "ancestor" ∈ _ by decide)
  have fitting := (fitting_of_kindComplaints formed.kinds).languages
  constructor
  · rw [runIn_changes, runAll_getElem?, hc, Nat.zero_add]
    rfl
  · refine ⟨d, e, hd, he, fun n => ?_⟩
    rw [apply_derive_eq_selfAncestor_iff, derivationOf_eq_ok_iff hd he]
    exact languageOf_both_iff (fitting _ (by decide) d hd given) (fitting _ (by decide) e he given')
      (formed.apart hd he)

/-- A request that adds a language, and derives it by its name from the old one by its index. -/
def firstDaughter : Request :=
  ⟨[⟨"add_language", [("name", "Anta")], some 2⟩,
    ⟨"derive", [("language", "Anta"), ("ancestor", (0 : Int))], some 3⟩], .null, .null, .null⟩

theorem run_derives_apart_first_daughter :
    firstDaughter.validate (some bare) = .ok ⟨[], []⟩ ∧
      ∃ c, firstDaughter.changes[1]? = some c ∧ Operation.ofName? c.operation = some .derive ∧
        let before := projectAfter .default bare (firstDaughter.changes.take 1)
        ∀ n, (apply before .default .derive c).2 ≠ .error (.selfAncestor n) := by
  have checked : firstDaughter.validate (some bare) = .ok ⟨[], []⟩ := rfl
  obtain ⟨-, d, e, hd, he, exactly⟩ :=
    run_derives_apart (s := .ofProject bare .default) firstDaughter false checked rfl
      (show firstDaughter.changes[1]? = some _ from rfl) rfl
  refine ⟨checked, _, rfl, rfl, fun n self => ?_⟩
  cases hd.symm.trans (show _ = some (.text "Anta") from rfl)
  cases he.symm.trans (show _ = some (.int 0) from rfl)
  have second : (projectAfter .default bare (firstDaughter.changes.take 1)).findLanguage
      (.text "Anta") = some 1 := by decide +kernel
  obtain - | ⟨found, hn⟩ := (exactly n).mp self
  cases found.symm.trans second
  cases hn

/-- A request that derives the one language of a project from itself, by its index and its name. -/
def twoSpellings : String :=
  "changes:\n- \x7boperation: derive, language: 0, ancestor: Ayi\x7d\n"

/-- The request is accepted, and fails as a derivation from the language itself when it is run. -/
theorem run_derives_from_itself :
    ∃ r c, ofText twoSpellings = .ok r ∧ r.validate (some bare) = .ok ⟨[], []⟩ ∧
      r.changes = [c] ∧ Operation.ofName? c.operation = some .derive ∧
      (apply bare .default .derive c).2 = .error (.selfAncestor 0) ∧
      (r.run (.ofProject bare .default) false false).2.changes.map (·.success) = [false] := by
  have outcome : (ofText twoSpellings).toOption.any (fun r =>
      (r.validate (some bare)).toOption == some ⟨[], []⟩ &&
      r.changes.map (fun c => (Operation.ofName? c.operation, (derivationOf bare c).toOption)) ==
        [(some .derive, some (0, 0))] &&
      (r.run (.ofProject bare .default) false false).2.changes.map (·.success) == [false])
      = true := by
    decide +kernel
  obtain ⟨r, hr, outcome⟩ := (Option.any_eq_true _ _).mp outcome
  simp only [Bool.and_eq_true, beq_iff_eq] at outcome
  obtain ⟨⟨accepted, single⟩, failed⟩ := outcome
  obtain ⟨c, changes, both⟩ := List.map_eq_singleton_iff.mp single
  obtain ⟨derives, found⟩ := Prod.mk.inj both
  exact ⟨r, c, toOption_eq_some_iff.mp hr, toOption_eq_some_iff.mp accepted, changes, derives,
    apply_derive_eq_selfAncestor_iff.mpr (toOption_eq_some_iff.mp found), failed⟩

end Neogrammar.Request
