import Neogrammar.Project.File
import Neogrammar.Proofs.Outcome

/-!
# Values that are not written

What a text of a project lacks, if it lacks anything: a whole number past the digit limit, and in
JSON also a point in time and a key that no text stands for. A project is written whole exactly if
there is no such value anywhere in it.
-/
namespace Neogrammar

/-- A value holds something that a format does not write. -/
inductive Datum.Unwritten (f : Format) : Json.Lack → Datum → Prop
  | number {n : Int} (long : Text.isWritable n = false) : Unwritten f .digits (.int n)
  | time (json : f = .json) (t : Timestamp) : Unwritten f .form (.time t)
  | item {lack : Json.Lack} {x : Datum} {xs : List Datum} (mem : x ∈ xs)
      (inner : Unwritten f lack x) : Unwritten f lack (.list xs)
  | value {lack : Json.Lack} {e : Datum × Datum} {es : List (Datum × Datum)} (mem : e ∈ es)
      (inner : Unwritten f lack e.2) : Unwritten f lack (.map es)
  /-- A key is written like any value. -/
  | key {lack : Json.Lack} {e : Datum × Datum} {es : List (Datum × Datum)} (yaml : f = .yaml)
      (mem : e ∈ es) (inner : Unwritten f lack e.1) : Unwritten f lack (.map es)
  /-- A key becomes a text. -/
  | keyText {lack : Json.Lack} {e : Datum × Datum} {es : List (Datum × Datum)} (json : f = .json)
      (mem : e ∈ es) (none : Json.keyText e.1 = .error lack) : Unwritten f lack (.map es)

/-! ## JSON -/

namespace Json

variable {l : Layout} {depth : Nat} {lack : Lack} {d : Datum}

@[simp] theorem Written.lack_cut (lack : Lack) : (Written.cut lack).lack = some lack := rfl

end Json

/-! ## YAML -/

namespace Datum

variable {d : Datum}

end Datum

/-! ## Texts of projects -/

namespace Project

variable {p : Project} {f : Format} {indent : Option Nat} {lack : Json.Lack}

end Project
end Neogrammar
