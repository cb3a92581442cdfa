import Neogrammar.SoundChange.Basic
import Neogrammar.Proofs.Pattern.Alternation

/-!
# The unit of a sound change

A target between what stands before and after, in two named groups, is read back as the three
sequences of tests it was written from; its template is read back as the two groups with the
replacement between them. Replacing every match then is one scan with a window.
-/
namespace Neogrammar.SoundChange

open Pattern Pattern.Reader

/-- A name that a group can be given and referred to by. -/
structure IsGroupName (name : String) : Prop where
  identifier : Text.isIdentifier name.toList = true
  nonempty : name.toList ≠ []
  plain : ∀ c ∈ name.toList, c ≠ '\\' ∧ c ≠ '>'

theorem isGroupName_of_all {name : String} (identifier : Text.isIdentifier name.toList = true)
    (nonempty : name.toList ≠ [])
    (plain : (name.toList.all fun c => c != '\\' && c != '>') = true) : IsGroupName name where
  identifier := identifier
  nonempty := nonempty
  plain := by simpa using plain

theorem isGroupName_before : IsGroupName beforeGroup :=
  isGroupName_of_all (by decide +kernel) (by decide) (by decide)

theorem isGroupName_after : IsGroupName afterGroup :=
  isGroupName_of_all (by decide +kernel) (by decide) (by decide)

variable {name : String} {p : Nat} {rest : List Char}

theorem whole_name (hn : IsGroupName name) : Whole (name.toList ++ '>' :: rest) := by
  have nonempty := hn.nonempty
  cases hl : name.toList with
  | nil => exact absurd hl nonempty
  | cons c s => exact whole_cons (hn.plain c (by simp [hl])).1

theorem accept_angle (hn : IsGroupName name) :
    (⟨p, '<' :: (name.toList ++ '>' :: rest)⟩ : Reader).accept '<'
      = .ok (true, ⟨p + 1, name.toList ++ '>' :: rest⟩) :=
  accept_seen (by decide) (whole_name hn)

theorem name_groupName (hn : IsGroupName name) (hr : Whole rest) :
    (⟨p, name.toList ++ '>' :: rest⟩ : Reader).name '>' "group name"
      = .ok (name, ⟨p + name.toList.length + 1, rest⟩) :=
  name_of_text (by decide) hn.plain hr hn.nonempty

theorem opening_named (hn : IsGroupName name) (hr : Whole rest) :
    opening ⟨p, '?' :: 'P' :: '<' :: (name.toList ++ '>' :: rest)⟩
      = .ok (.capture (some name), ⟨p + name.toList.length + 4, rest⟩) := by
  have mark : (⟨p, '?' :: 'P' :: '<' :: (name.toList ++ '>' :: rest)⟩ : Reader).accept '?'
      = .ok (true, ⟨p + 1, 'P' :: '<' :: (name.toList ++ '>' :: rest)⟩) :=
    accept_seen (by decide) (whole_cons (by decide))
  have named : namedOpening ⟨p + 2, '<' :: (name.toList ++ '>' :: rest)⟩
      = .ok (.capture (some name), ⟨p + 3 + name.toList.length + 1, rest⟩) := by
    simp only [namedOpening, accept_angle hn, ok_bind, ↓reduceIte, name_groupName hn hr, checkName,
      hn.identifier, pure_eq_ok]
  simp only [opening, mark, ok_bind, Bool.not_true, Bool.false_eq_true, ↓reduceIte,
    next_plain (show 'P' ≠ '\\' by decide),
    advance_plain (show 'P' ≠ '\\' by decide) (whole_cons (show '<' ≠ '\\' by decide)), named]
  rw [show p + 3 + name.toList.length + 1 = p + name.toList.length + 4 by omega]

/-- Groups with one more, which has a name; it has a width once it is closed. -/
def withGroup (g : Groups) (name : String) (width : Option (Nat × Nat)) : Groups :=
  { g with
    widths := g.widths ++ [width]
    names := g.names ++ [(name, g.count)] }

/-- Groups with one more, which has been closed after a body. -/
def withBody (g : Groups) (name : String) (body : Node) : Groups :=
  withGroup g name (some (body.width (withGroup g name none).widthOf))

@[simp] theorem count_start : Groups.start.count = 1 := rfl

@[simp] theorem names_start : Groups.start.names = [] := rfl

@[simp] theorem mentions_start : Groups.start.mentions = [] := rfl

@[simp] theorem count_withBody (g : Groups) (name : String) (body : Node) :
    (withBody g name body).count = g.count + 1 := by
  simp [withBody, withGroup, Groups.count]

@[simp] theorem names_withBody (g : Groups) (name : String) (body : Node) :
    (withBody g name body).names = g.names ++ [(name, g.count)] := rfl

@[simp] theorem mentions_withBody (g : Groups) (name : String) (body : Node) :
    (withBody g name body).mentions = g.mentions := rfl

theorem opened_new {g : Groups} {r : Reader} (new : g.names.lookup name = none) :
    g.opened (some name) r = .ok (g.count, withGroup g name none) := by
  simp only [Groups.opened, new, withGroup]

theorem close_withGroup (g : Groups) (name : String) (width : Nat × Nat) :
    (withGroup g name none).close g.count width = withGroup g name (some width) := by
  simp [Groups.close, withGroup, Groups.count]

/-- A named group of items is read as one item. -/
theorem sequence_group {fuel : Nat} {top : Bool} {g : Groups} {items : Items}
    {pieces : List (List Char)} {nodes : List Node} (hn : IsGroupName name)
    (h : List.Forall₂ ReadsItem pieces nodes) (new : g.names.lookup name = none)
    (enough : 3 * pieces.flatten.length < fuel) (hr : Whole rest) :
    sequence (fuel + 2) top .none g items ⟨p, inGroup name pieces.flatten ++ rest⟩
      = sequence fuel top .none (withBody g name (joinItems (plainItems nodes)))
          ((.group g.count (joinItems (plainItems nodes)), .plain) :: items)
          ⟨p + (inGroup name pieces.flatten).length, rest⟩ := by
  have closed : Whole (')' :: rest) := whole_cons (by decide)
  have inner := whole_items h closed
  have written : inGroup name pieces.flatten ++ rest
      = '(' :: '?' :: 'P' :: '<' :: (name.toList ++ '>' :: (pieces.flatten ++ ')' :: rest)) := by
    simp [inGroup]
  have closes : ∀ start q, closing start ⟨q, ')' :: rest⟩ = .ok ⟨q + 1, rest⟩ := by
    intro start q
    simp [closing, accept_seen (show ')' ≠ '\\' by decide) hr, pure_eq_ok]
  have length : p + 1 + name.toList.length + 4 + pieces.flatten.length + 1
      = p + (inGroup name pieces.flatten).length := by
    simp only [inGroup, List.length_append, List.length_cons, List.length_nil]
    omega
  rw [written, sequence_open (whole_cons (by decide)), bracket, opening_named hn inner]
  simp only [ok_bind, opened_new new, alternatives_items h closed enough, closes, close_withGroup,
    length, withBody]

/-! ## A target between two groups -/

/-- What a target between two groups is read as. -/
def aroundNode (before target after : List Node) : Node :=
  joinItems ((.group 2 (joinItems (plainItems after)), .plain) :: (plainItems target
    ++ [(.group 1 (joinItems (plainItems before)), .plain)]))

def aroundOf (before target after : List Node) : Compiled :=
  ⟨aroundNode before target after, 2, [(beforeGroup, 1), (afterGroup, 2)]⟩

theorem defect?_aroundNode {noRepeats : Bool} {before target after : List Node}
    (sound : ∀ node ∈ before ++ target ++ after, node.defect? noRepeats = none) :
    (aroundNode before target after).defect? noRepeats = none := by
  simp only [List.forall_mem_append] at sound
  refine defect?_joinItems_iff.mpr ?_
  intro item hi
  simp only [List.mem_cons, List.mem_append, List.not_mem_nil, or_false] at hi
  rcases hi with rfl | hi | rfl
  · exact defect?_plainItems sound.2
  · exact defect?_joinItems_iff.mp (defect?_plainItems sound.1.2) item hi
  · exact defect?_plainItems sound.1.1

/-- The pattern of a unit whose parts are items is read back as its three parts. -/
theorem parse_around {before target after : List (List Char)} {b t a : List Node}
    (hb : List.Forall₂ ReadsItem before b) (ht : List.Forall₂ ReadsItem target t)
    (ha : List.Forall₂ ReadsItem after a) (sound : (aroundNode b t a).defect? false = none) :
    Pattern.parse (unitPattern before.flatten target.flatten after.flatten)
      = .ok (aroundOf b t a) := by
  have last : Whole (inGroup afterGroup after.flatten ++ []) := whole_cons (by decide)
  have middle : Whole (target.flatten ++ (inGroup afterGroup after.flatten ++ [])) :=
    whole_items ht last
  have written : unitPattern before.flatten target.flatten after.flatten
      = inGroup beforeGroup before.flatten
        ++ (target.flatten ++ (inGroup afterGroup after.flatten ++ [])) := by
    simp [unitPattern]
  have whole : Whole (unitPattern before.flatten target.flatten after.flatten) :=
    whole_cons (by decide)
  have short := length_le_items ht
  -- the group before takes two steps, each item of the target two, and the group after two again
  obtain ⟨fuel, hf, enough⟩ : ∃ fuel,
      4 * (unitPattern before.flatten target.flatten after.flatten).length + 4
        = fuel + 2 + 2 * target.length + 2 + 1
      ∧ 3 * before.flatten.length < fuel + 2 + 2 * target.length
      ∧ target.flatten.length ≤ fuel + 2 ∧ 3 * after.flatten.length < fuel := by
    refine ⟨4 * (unitPattern before.flatten target.flatten after.flatten).length
      - 2 * target.length - 1, ?_⟩
    simp only [unitPattern, inGroup, List.length_append, List.length_cons, List.length_nil]
    omega
  obtain ⟨left, hleft, read⟩ := @sequence_items (fuel + 2)
    (0 + (inGroup beforeGroup before.flatten).length)
    (withBody .start beforeGroup (joinItems (plainItems b))) _ target t ht true
    [(.group 1 (joinItems (plainItems b)), .plain)] last enough.2.1
  obtain ⟨left, rfl⟩ : ∃ n, left = n + 2 := ⟨left - 2, by omega⟩
  have stop : ∀ p, (⟨p, []⟩ : Reader).accept '|' = .ok (false, ⟨p, []⟩) :=
    fun p => accept_unseen (by simp)
  have parsed : alternatives (fuel + 2 + 2 * target.length + 2 + 1) true .none .start
      ⟨0, unitPattern before.flatten target.flatten after.flatten⟩
      = .ok ⟨aroundNode b t a, .none,
          withBody (withBody .start beforeGroup (joinItems (plainItems b))) afterGroup
            (joinItems (plainItems a)),
          ⟨(unitPattern before.flatten target.flatten after.flatten).length, []⟩⟩ := by
    rw [written, alternatives, sequence_group isGroupName_before hb rfl enough.1 middle,
      count_start, read, sequence_group isGroupName_after ha rfl (by omega) whole_nil,
      sequence_end, ok_bind, stop]
    simp [aroundNode, pure_eq_ok, Nat.add_assoc]
  exact parse_eq_ok_iff.mpr ⟨_, whole, by rw [hf, parsed], ⟨rfl, rfl, rfl, sound⟩, rfl⟩

/-! ## A target of tests -/

/-- What the pattern of a unit is read as. -/
def unitNode (before target after : List CharTest) : Node :=
  joinItems ((.group 2 (joinItems (itemsOf after)), .plain) :: (itemsOf target
    ++ [(.group 1 (joinItems (itemsOf before)), .plain)]))

def unitOf (before target after : List CharTest) : Compiled :=
  ⟨unitNode before target after, 2, [(beforeGroup, 1), (afterGroup, 2)]⟩

theorem unitNode_eq (before target after : List CharTest) : unitNode before target after
    = aroundNode (before.map .char) (target.map .char) (after.map .char) := by
  simp only [unitNode, aroundNode, plainItems_char]

/-- The pattern of a unit is read back as its three parts. -/
theorem parse_unit {before target after : List (List Char)} {b t a : List CharTest}
    (hb : List.Forall₂ ReadsAs before b) (ht : List.Forall₂ ReadsAs target t)
    (ha : List.Forall₂ ReadsAs after a) :
    Pattern.parse (unitPattern before.flatten target.flatten after.flatten)
      = .ok (unitOf b t a) := by
  have sound : ∀ node ∈ b.map Node.char ++ t.map Node.char ++ a.map Node.char,
      node.defect? false = none := by
    rw [← List.map_append, ← List.map_append, List.forall_mem_map]
    exact fun _ _ => rfl
  rw [parse_around (forall₂_item hb) (forall₂_item ht) (forall₂_item ha)
    (defect?_aroundNode sound), aroundOf, unitOf, unitNode_eq]

/-! ## The template -/

/-- A replacement between two groups. -/
def aroundPieces (b a : Nat) (replacement : List Char) : Template :=
  .group b :: (replacement.map (fun c => .text [c]) ++ [.group a])

/-- What the template of a unit is read as. -/
def unitPieces (replacement : List Char) : Template :=
  .group 1 :: (replacement.map (fun c => .text [c]) ++ [.group 2])

section
variable {c : Compiled} {fuel n : Nat} {x : Except Refusal Template}

theorem pieces_end : pieces c fuel ⟨p, []⟩ = .ok [] := by cases fuel <;> simp [pieces]

theorem pieces_named :
    pieces c (fuel + 1) ⟨p, groupReference name ++ rest⟩ =
      namedPiece c ⟨p + 2, '<' :: (name.toList ++ '>' :: rest)⟩ >>= fun x =>
        pieces c fuel x.2 >>= fun rest => pure (x.1 :: rest) := by
  have written : groupReference name ++ rest
      = '\\' :: 'g' :: '<' :: (name.toList ++ '>' :: rest) := by
    simp [groupReference]
  rw [written, pieces, next_escaped]
  simp only [advance_escaped (whole_cons (show '<' ≠ '\\' by decide)), ok_bind, escapePiece,
    ↓reduceIte]

/-- A reference to a named group is read back as that group. -/
theorem pieces_reference (hn : IsGroupName name) (known : c.names.lookup name = some n)
    (le : n ≤ c.groups) (hr : Whole rest) (h : ∀ q, pieces c fuel ⟨q, rest⟩ = x) :
    pieces c (fuel + 1) ⟨p, groupReference name ++ rest⟩ = (.group n :: ·) <$> x := by
  have named : namedPiece c ⟨p + 2, '<' :: (name.toList ++ '>' :: rest)⟩
      = .ok (.group n, ⟨p + 3 + name.toList.length + 1, rest⟩) := by
    simp only [namedPiece, accept_angle hn, ok_bind, Bool.not_true, Bool.false_eq_true, ↓reduceIte,
      name_groupName hn hr, hn.identifier, known, groupPiece, Nat.not_lt.mpr le, pure_eq_ok]
  rw [pieces_named, named, ok_bind, h]
  cases x <;> rfl

/-- A reference to a group that is not there is refused. -/
theorem pieces_unknown (hn : IsGroupName name) (unknown : c.names.lookup name = none)
    (hr : Whole rest) :
    pieces c (fuel + 1) ⟨p, groupReference name ++ rest⟩ = .error (.unknownGroup name) := by
  have refused : namedPiece c ⟨p + 2, '<' :: (name.toList ++ '>' :: rest)⟩
      = .error (.unknownGroup name) := by
    simp only [namedPiece, accept_angle hn, ok_bind, Bool.not_true, Bool.false_eq_true, ↓reduceIte,
      name_groupName hn hr, hn.identifier, unknown]
  rw [pieces_named, refused]
  rfl

theorem verbatim_cons (d : Char) (s : List Char) :
    verbatim (d :: s) = (if d = '\\' then ['\\', '\\'] else [d]) ++ verbatim s := by
  simp [verbatim]

theorem whole_verbatim (s : List Char) (hr : Whole rest) : Whole (verbatim s ++ rest) := by
  cases s with
  | nil => exact hr
  | cons d s =>
    rw [verbatim_cons]
    by_cases hd : d = '\\'
    · rw [if_pos hd]
      exact whole_escaped
    · rw [if_neg hd]
      exact whole_cons hd

theorem length_le_verbatim (s : List Char) : s.length ≤ (verbatim s).length := by
  induction s with
  | nil => simp
  | cons d s ih =>
    rw [verbatim_cons, List.length_append, List.length_cons]
    split <;> simp <;> omega

/-- A literal text is read back character by character. -/
theorem pieces_verbatim (s : List Char) (hr : Whole rest) (h : ∀ q, pieces c fuel ⟨q, rest⟩ = x) :
    pieces c (fuel + s.length) ⟨p, verbatim s ++ rest⟩
      = (s.map (fun d => .text [d]) ++ ·) <$> x := by
  induction s generalizing p with
  | nil =>
    rw [verbatim, List.flatMap_nil, List.nil_append, List.length_nil, Nat.add_zero, h]
    cases x <;> rfl
  | cons d s ih =>
    have tail := whole_verbatim s hr
    rw [verbatim_cons, List.append_assoc, List.length_cons, ← Nat.add_assoc, pieces]
    by_cases hd : d = '\\'
    · subst hd
      have backslash : ∀ r, escapePiece c '\\' r = .ok (.text ['\\'], r) := fun _ => rfl
      simp only [↓reduceIte, List.cons_append, List.nil_append, next_escaped, advance_escaped tail,
        ok_bind, backslash, ih]
      cases x <;> rfl
    · simp only [hd, ↓reduceIte, List.cons_append, List.nil_append, next_plain hd,
        advance_plain hd tail, ok_bind, ih]
      cases x <;> rfl

/-- The template of a unit is read as a reference to the group before, the replacement, and what
the reference to the group after is read as. -/
theorem readTemplate_between {b : Nat} (hb : c.names.lookup beforeGroup = some b)
    (hbc : b ≤ c.groups) (replacement : List Char)
    (h : ∀ fuel q, pieces c (fuel + 1) ⟨q, groupReference afterGroup⟩ = x) :
    Substitution.readTemplate c (String.ofList (unitTemplate replacement))
      = (fun more => .group b :: (replacement.map (fun d => .text [d]) ++ more)) <$> x := by
  have written : unitTemplate replacement
      = groupReference beforeGroup ++ (verbatim replacement ++ groupReference afterGroup) := by
    simp [unitTemplate]
  have escapes : (unitTemplate replacement).contains '\\' = true := by
    simp [unitTemplate, groupReference]
  have whole : Whole (unitTemplate replacement) := whole_escaped
  have reference : Whole (groupReference afterGroup) := whole_escaped
  obtain ⟨fuel, hf⟩ : ∃ fuel,
      (unitTemplate replacement).length + 1 = fuel + 1 + replacement.length + 1 := by
    have := length_le_verbatim replacement
    refine ⟨(unitTemplate replacement).length - replacement.length - 1, ?_⟩
    simp only [unitTemplate, groupReference, List.length_append, List.length_cons, List.length_nil]
    omega
  rw [Substitution.readTemplate, String.toList_ofList, if_pos escapes, Pattern.template,
    Reader.start, settle_whole whole, ok_bind, hf, written,
    pieces_reference isGroupName_before hb hbc (whole_verbatim _ reference)
      fun _ => pieces_verbatim replacement reference (h fuel)]
  cases x <;> rfl

/-- The template of a unit is read back as the replacement between the two groups. -/
theorem readTemplate_around {b a : Nat} (hb : c.names.lookup beforeGroup = some b)
    (ha : c.names.lookup afterGroup = some a) (hbc : b ≤ c.groups) (hac : a ≤ c.groups)
    (replacement : List Char) :
    Substitution.readTemplate c (String.ofList (unitTemplate replacement))
      = .ok (aroundPieces b a replacement) := by
  refine readTemplate_between (x := .ok [.group a]) hb hbc replacement fun fuel q => ?_
  rw [← List.append_nil (groupReference afterGroup)]
  exact pieces_reference isGroupName_after ha hac whole_nil fun _ => pieces_end

/-- Where the group after is not there, the template of a unit is refused. -/
theorem readTemplate_unknown {b : Nat} (hb : c.names.lookup beforeGroup = some b)
    (unknown : c.names.lookup afterGroup = none) (hbc : b ≤ c.groups) (replacement : List Char) :
    Substitution.readTemplate c (String.ofList (unitTemplate replacement))
      = .error (.unknownGroup afterGroup) := by
  refine readTemplate_between (x := .error (.unknownGroup afterGroup)) hb hbc replacement
    fun fuel q => ?_
  rw [← List.append_nil (groupReference afterGroup)]
  exact pieces_unknown isGroupName_after unknown whole_nil

end

theorem readTemplate_unit (before target after : List CharTest) (replacement : List Char) :
    Substitution.readTemplate (unitOf before target after)
      (String.ofList (unitTemplate replacement)) = .ok (unitPieces replacement) :=
  readTemplate_around rfl rfl (Nat.le_succ 1) (Nat.le_refl 2) replacement

end Neogrammar.SoundChange
