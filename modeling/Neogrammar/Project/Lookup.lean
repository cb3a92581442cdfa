import Neogrammar.Project.Basic

/-!
# Looking languages up

A language is looked up by its index if the text consists of digits, and by its name otherwise.
-/
namespace Neogrammar

/-- Whether a text consists of digits, also of those outside the place-value systems. -/
def Text.isNumeral (s : String) : Bool := !s.isEmpty && s.toList.all fun c => Text.isDigit c.toNat

namespace Project

/-- The index of the language that a text names. -/
def lookUp (p : Project) (ref : String) : Except Error (Option Nat) :=
  if Text.isNumeral ref then do
    let index ← wholeOfText ref
    pure (if p.languages.isLive index then some index.toNat else none)
  else .ok (p.findLanguage (.text ref))

end Project
end Neogrammar
