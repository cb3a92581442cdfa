import Neogrammar.Files
import Neogrammar.Proofs.Text.Cut

/-!
# Laws of files

A path has one normal form, a text that was written is read under the same path, and a text without
carriage returns is read as it is.
-/
namespace Neogrammar

namespace Path

/-- A step that is kept: not empty, not to the same place, and without slashes. -/
structure IsStep (s : List Char) : Prop where
  nonempty : s ≠ []
  moves : s ≠ ['.']
  noSlash : ∀ c ∈ s, (c == '/') = false

theorem isStep_of_mem {path : String} {s : List Char} (h : s ∈ steps path) : IsStep s := by
  obtain ⟨hs, kept⟩ := List.mem_filter.mp h
  simp only [Bool.and_eq_true, Bool.not_eq_true', List.isEmpty_eq_false_iff, bne_iff_ne, ne_eq]
    at kept
  exact ⟨kept.1, kept.2, Text.not_mem_cutAt s hs⟩

theorem root_cases (path : String) :
    root path = [] ∨ root path = ['/'] ∨ root path = ['/', '/'] := by
  have slashes : ∀ c ∈ path.toList.takeWhile (· == '/'), c = '/' := fun c hc => by
    simpa using List.all_eq_true.mp List.all_takeWhile c hc
  rw [root, List.eq_replicate_of_mem slashes]
  simp only [List.length_replicate]
  split
  · rename_i two
    rw [two]
    exact .inr (.inr rfl)
  · cases (path.toList.takeWhile (· == '/')).length with
    | zero => exact .inl rfl
    | succ n => exact .inr (.inl rfl)

section

variable {start : List Char} {parts : List (List Char)}

theorem filter_steps (h : ∀ s ∈ parts, IsStep s) :
    (parts.filter fun s => !s.isEmpty && s != ['.']) = parts := by
  refine List.filter_eq_self.mpr fun s hs => ?_
  simp [(h s hs).nonempty, (h s hs).moves]

/-- The steps of a path that is put together from a root and steps. -/
theorem steps_joined (hs : start = [] ∨ start = ['/'] ∨ start = ['/', '/'])
    (h : ∀ s ∈ parts, IsStep s) :
    steps (String.ofList (start ++ List.intercalate ['/'] parts)) = parts := by
  have cut : (Text.cutAt (· == '/') (List.intercalate ['/'] parts)).filter
      (fun s => !s.isEmpty && s != ['.']) = parts := by
    cases parts with
    | nil => rfl
    | cons first parts =>
      rw [Text.cutAt_intercalate (by simp) fun s hs => (h s hs).noSlash, filter_steps h]
  rcases hs with rfl | rfl | rfl <;> simpa [steps, Text.cutAt] using cut

theorem root_joined (hs : start = [] ∨ start = ['/'] ∨ start = ['/', '/'])
    (h : ∀ s ∈ parts, IsStep s) :
    root (String.ofList (start ++ List.intercalate ['/'] parts)) = start := by
  have bare : (List.intercalate ['/'] parts).takeWhile (· == '/') = [] := by
    cases parts with
    | nil => rfl
    | cons first parts =>
      obtain ⟨nonempty, -, noSlash⟩ := h first List.mem_cons_self
      obtain ⟨c, more, rfl⟩ := List.exists_cons_of_ne_nil nonempty
      have head : List.intercalate ['/'] ((c :: more) :: parts) =
          c :: (List.intercalate ['/'] ((c :: more) :: parts)).tail := by
        cases parts <;> simp [List.intercalate]
      rw [head, List.takeWhile_cons_of_neg (by simp [noSlash c List.mem_cons_self])]
  rcases hs with rfl | rfl | rfl <;> simp [root, bare]

end

theorem normal_eq {path : String} (h : ¬ (root path = [] ∧ steps path = [])) :
    normal path = String.ofList (root path ++ List.intercalate ['/'] (steps path)) := by
  unfold normal
  split
  · rename_i hr hs
    exact absurd ⟨hr, hs⟩ h
  · rfl

/-- A normal path has the root and the steps of the path. -/
theorem parts_normal (path : String) :
    root (normal path) = root path ∧ steps (normal path) = steps path := by
  by_cases here : root path = [] ∧ steps path = []
  · have current : normal path = "." := by simp [normal, here]
    rw [current, here.1, here.2]
    exact ⟨rfl, rfl⟩
  · have isSteps : ∀ s ∈ steps path, IsStep s := fun s hs => isStep_of_mem hs
    rw [normal_eq here]
    exact ⟨root_joined (root_cases path) isSteps, steps_joined (root_cases path) isSteps⟩

/-- A normal path is its own normal form. -/
theorem normal_normal (path : String) : normal (normal path) = normal path := by
  obtain ⟨root, steps⟩ := parts_normal path
  rw [normal, root, steps, normal]

end Path

namespace Files

theorem unifyBreaks_clean {s : List Char} (h : '\r' ∉ s) : unifyBreaks s = s := by
  induction s with
  | nil => rfl
  | cons c s ih =>
    simp only [List.mem_cons, not_or] at h
    rw [unifyBreaks, ih h.2]
    · exact fun rest he => absurd he (Ne.symm h.1)
    · exact fun he => absurd he (Ne.symm h.1)

theorem stored?_putEntry (path text : String) (entries : List (String × String)) :
    ((putEntry (Path.normal path) text entries).find? fun e =>
      Path.normal e.1 == Path.normal path).map (·.2) = some text := by
  induction entries with
  | nil => simp [putEntry, Path.normal_normal]
  | cons e entries ih =>
    rw [putEntry, Path.normal_normal]
    split
    · rename_i same
      rw [List.find?_cons, same]
      rfl
    · rename_i other
      rw [List.find?_cons, Bool.eq_false_iff.mpr other]
      exact ih

/-- Writing an entry leaves the texts of other paths as they are. -/
theorem stored?_putEntry_of_ne {path other : String} (h : Path.normal other ≠ Path.normal path)
    (text : String) (entries : List (String × String)) :
    ((putEntry (Path.normal path) text entries).find? fun e =>
      Path.normal e.1 == Path.normal other).map (·.2) =
        (entries.find? fun e => Path.normal e.1 == Path.normal other).map (·.2) := by
  induction entries with
  | nil => simp [putEntry, Path.normal_normal, Ne.symm h]
  | cons e entries ih =>
    rw [putEntry, Path.normal_normal]
    split
    · rename_i same
      have apart : (Path.normal e.1 == Path.normal other) = false := by
        rw [beq_iff_eq.mp same]
        exact beq_eq_false_iff_ne.mpr (Ne.symm h)
      rw [List.find?_cons, List.find?_cons, apart]
    · rw [List.find?_cons, List.find?_cons]
      split
      · rfl
      · exact ih

/-- A text can be written under a path whose directory is there. -/
theorem exists_write? {f : Files} {path : String} (h : f.hasDirectory (Path.parent path) = true)
    (text : String) : ∃ g, f.write? path text = some g := by
  rw [write?, if_pos h]
  exact ⟨_, rfl⟩

section

variable {f g : Files} {path text : String}

/-- A text that was written is stored under its path, and nothing else has changed. -/
theorem stored?_of_write? (h : f.write? path text = some g) : g.stored? path = some text ∧
    ∀ other, Path.normal other ≠ Path.normal path → g.stored? other = f.stored? other := by
  unfold write? at h
  split at h
  · cases h
    exact ⟨stored?_putEntry path text f.entries,
      fun other apart => stored?_putEntry_of_ne apart text f.entries⟩
  · cases h

/-- A text that was written is read under its path, with its breaks as line feeds. -/
theorem read?_of_write? (h : f.write? path text = some g) :
    g.read? path = some (String.ofList (unifyBreaks text.toList)) := by
  rw [read?, (stored?_of_write? h).1]
  rfl

end

end Files
end Neogrammar
