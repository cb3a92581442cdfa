import Neogrammar.Proofs.SoundChange.Compile

/-!
# What a compiled sound change depends on

Compiling asks a table only for the characters that the sound change is written with. Any character
may be a category, also one of those that compiling itself writes: the names of the two groups, the
brackets of a class, the marks of a template. These are never looked up, and neither is a grapheme
that was put in. So tables that agree on the characters of a sound change compile it alike, whatever
else they hold and in whatever order.
-/
namespace Neogrammar

/-- A character occurs in a value if it is one of its signs. -/
def Sign.OccursIn (c : Char) (d : Datum) : Prop := ∃ signs, ofDatum d = .ok signs ∧ .char c ∈ signs

theorem Sign.occursIn_text {c : Char} {s : String} : OccursIn c (.text s) ↔ c ∈ s.toList := by
  simp [OccursIn]

namespace Categories

/-- Two tables give each of some characters the same graphemes, or both have none for it. -/
def Agree (t u : Categories) (p : Char → Prop) : Prop := ∀ c, p c → t.find? c = u.find? c

variable {t u : Categories} {signs : List Sign} {d : Datum}

theorem Agree.mono {p q : Char → Prop} (h : t.Agree u p) (sub : ∀ c, q c → p c) : t.Agree u q :=
  fun c hc => h c (sub c hc)

theorem Agree.tail {sign : Sign} (h : t.Agree u (.char · ∈ sign :: signs)) :
    t.Agree u (.char · ∈ signs) :=
  h.mono fun _ => List.mem_cons_of_mem sign

/-- Signs of a value are looked up alike if the value is. -/
theorem Agree.ofDatum (h : t.Agree u (Sign.OccursIn · d)) (hs : Sign.ofDatum d = .ok signs) :
    t.Agree u (.char · ∈ signs) :=
  h.mono fun _ hc => ⟨signs, hs, hc⟩

theorem mentioned_congr (h : t.Agree u (.char · ∈ signs)) (seen : List Char) :
    t.mentioned seen signs = u.mentioned seen signs := by
  induction signs generalizing seen with
  | nil => rfl
  | cons sign signs ih =>
    cases sign with
    | char c =>
      have same : t.has c = u.has c := congrArg Option.isSome (h c List.mem_cons_self)
      rw [mentioned, mentioned, same, ih h.tail, ih h.tail]
    | other d => exact ih h.tail seen

/-- A category is mentioned because it is one of the signs. -/
theorem sign_of_mentioned {seen : List Char} {c : Char} (h : c ∈ t.mentioned seen signs) :
    c ∈ seen ∨ .char c ∈ signs := by
  induction signs generalizing seen with
  | nil => exact .inl h
  | cons sign signs ih =>
    have later : c ∈ seen ∨ .char c ∈ signs → c ∈ seen ∨ .char c ∈ sign :: signs :=
      Or.imp_right (List.mem_cons_of_mem sign)
    cases sign with
    | other d => exact later (ih h)
    | char k =>
      rw [mentioned] at h
      split at h
      · rcases ih h with before | after
        · rcases List.mem_append.mp before with before | new
          · exact .inl before
          · exact .inr (List.mem_singleton.mp new ▸ List.mem_cons_self)
        · exact later (.inr after)
      · exact later (ih h)

theorem referenced_congr (h : t.Agree u (Sign.OccursIn · d)) : t.referenced d = u.referenced d :=
  bind_congr_ok fun _ hs => congrArg pure (mentioned_congr (h.ofDatum hs) [])

theorem Agree.referenced {keys : List Char} (h : t.Agree u (Sign.OccursIn · d))
    (hk : u.referenced d = .ok keys) : t.Agree u (· ∈ keys) := by
  obtain ⟨signs, hs, hk⟩ := bind_eq_ok_iff.mp hk
  cases hk
  refine h.mono fun c hc => ⟨signs, hs, ?_⟩
  exact (sign_of_mentioned hc).resolve_left List.not_mem_nil

theorem expandSigns_congr (h : t.Agree u (.char · ∈ signs)) :
    t.expandSigns signs = u.expandSigns signs := by
  induction signs with
  | nil => rfl
  | cons sign signs ih =>
    have first : t.expandSign sign = u.expandSign sign := by
      cases sign with
      | char c => rw [expandSign, expandSign, h c List.mem_cons_self]
      | other d => cases d <;> rfl
    rw [expandSigns, expandSigns, first, ih h.tail]

theorem expand_congr (h : t.Agree u (Sign.OccursIn · d)) : t.expand d = u.expand d :=
  bind_congr_ok fun _ hs => expandSigns_congr (h.ofDatum hs)

theorem resolve_congr (h : t.Agree u (Sign.OccursIn · d)) (index : Int) (asPattern : Bool) :
    t.resolve d index asPattern = u.resolve d index asPattern := by
  refine bind_congr_ok fun signs hs => ?_
  have each : ∀ sign ∈ signs,
      t.resolveSign index asPattern sign = u.resolveSign index asPattern sign := by
    intro sign member
    cases sign with
    | char c => rw [resolveSign, resolveSign, h.ofDatum hs c member]
    | other d => rfl
  rw [mapM_congr each]

end Categories

namespace SoundChange

variable {t u : Categories} {s : SoundChange}

/-- A character that a sound change is written with. -/
def Shows (s : SoundChange) (c : Char) : Prop :=
  Sign.OccursIn c s.target ∨ Sign.OccursIn c s.replacement ∨ c ∈ s.environment.toList

theorem shortest_congr {keys : List Char} (h : t.Agree u (· ∈ keys)) :
    shortest t keys = shortest u keys := by
  have lengths : keys.map (fun k => ((t.find? k).getD []).length)
      = keys.map fun k => ((u.find? k).getD []).length :=
    List.map_congr_left fun k hk => by rw [h k hk]
  rw [shortest, shortest, lengths]

/-- What stands before and after the marker stands in the environment. -/
theorem agree_sides {before after : String} (sides : sidesOf s.environment = .ok (before, after))
    (h : t.Agree u s.Shows) :
    t.Agree u (Sign.OccursIn · (.text before)) ∧ t.Agree u (Sign.OccursIn · (.text after)) := by
  have parts := (sidesOf_eq_ok_iff.mp sides).1
  constructor
  all_goals
    refine h.mono fun c hc => .inr (.inr ?_)
    rw [Sign.occursIn_text] at hc
    simp [parts, hc]

section
variable {before after : String} (sides : sidesOf s.environment = .ok (before, after))
  (h : t.Agree u s.Shows) (limits : Limits)
include sides h

theorem substitutionFor_congr (target replacement : List Char) :
    substitutionFor t s before after target replacement limits
      = substitutionFor u s before after target replacement limits := by
  obtain ⟨front, back⟩ := agree_sides sides h
  rw [substitutionFor, substitutionFor, Categories.expand_congr front,
    Categories.expand_congr back]

theorem compilePair_congr (index : Nat) :
    compilePair t s before after limits index = compilePair u s before after limits index := by
  rw [compilePair, compilePair, Categories.resolve_congr (h.mono fun _ => .inl),
    Categories.resolve_congr (h.mono fun _ hc => .inr (.inl hc))]
  exact bind_congr fun _ => bind_congr fun _ => substitutionFor_congr sides h limits _ _

end

/-- Tables that agree on the characters of a sound change compile it to the same substitutions, or
refuse it with the same error. -/
theorem compile_congr (h : t.Agree u s.Shows) (limits : Limits) :
    s.compile t limits = s.compile u limits := by
  have target : t.Agree u (Sign.OccursIn · s.target) := h.mono fun _ => .inl
  have replacement : t.Agree u (Sign.OccursIn · s.replacement) := h.mono fun _ hc => .inr (.inl hc)
  refine bind_congr_ok fun ⟨before, after⟩ sides => ?_
  dsimp only
  rw [Categories.referenced_congr replacement, Categories.referenced_congr target,
    Categories.expand_congr target]
  refine bind_congr_ok fun paired mentioned => ?_
  split
  · refine bind_congr fun pattern => ?_
    split
    · rw [substitutionFor_congr sides h]
    · rfl
  · refine bind_congr_ok fun keys mentioned' => ?_
    rw [shortest_congr (target.referenced mentioned'),
      shortest_congr (replacement.referenced mentioned),
      mapM_congr fun i _ => compilePair_congr sides h limits i]

/-- Categories whose keys are characters that compiling writes, and one category more. -/
def busyTable : Categories :=
  ⟨[('c', [.text "x"]), ('(', [.text "?"]), ('V', [.text "a", .text "ts"]), ('\\', [.text "V"])]⟩

def quietTable : Categories := ⟨[('V', [.text "a", .text "ts"])]⟩

/-- Any vowel is doubled at the end. -/
def doublingRule : SoundChange := ⟨.text "V", .text "VV", "_#"⟩

theorem compile_congr_busy :
    doublingRule.compile busyTable .default = doublingRule.compile quietTable .default
      ∧ (doublingRule.compile busyTable .default).isOk = true := by
  have agree : busyTable.Agree quietTable doublingRule.Shows := by
    intro c shown
    have sign : c = 'V' ∨ c = '_' ∨ c = '#' := by
      simpa [Shows, doublingRule, Sign.occursIn_text] using shown
    obtain rfl | rfl | rfl := sign <;> rfl
  exact ⟨compile_congr agree .default, by decide +kernel⟩

end SoundChange
end Neogrammar
