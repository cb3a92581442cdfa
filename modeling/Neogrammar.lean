import Neogrammar.Json.Reader
import Neogrammar.Json.Writer
import Neogrammar.Main
import Neogrammar.Proofs.Command.Apply
import Neogrammar.Proofs.Construction
import Neogrammar.Proofs.Datum.Plain
import Neogrammar.Proofs.Descent.InPlace
import Neogrammar.Proofs.Descent.Merge
import Neogrammar.Proofs.Files
import Neogrammar.Proofs.Fixpoint
import Neogrammar.Proofs.Handles
import Neogrammar.Proofs.Json.ReadBack
import Neogrammar.Proofs.Markup
import Neogrammar.Proofs.Pattern.Escapes
import Neogrammar.Proofs.Pattern.Flanked
import Neogrammar.Proofs.Pattern.Follow
import Neogrammar.Proofs.Pattern.Grammar
import Neogrammar.Proofs.Pattern.Known
import Neogrammar.Proofs.Pattern.Openings
import Neogrammar.Proofs.Pattern.Repeats
import Neogrammar.Proofs.Pattern.Within
import Neogrammar.Proofs.Project.Ancestry
import Neogrammar.Proofs.Project.Calls
import Neogrammar.Proofs.Project.Derivation
import Neogrammar.Proofs.Project.Edits
import Neogrammar.Proofs.Project.Escapes
import Neogrammar.Proofs.Project.File
import Neogrammar.Proofs.Project.Ghosts
import Neogrammar.Proofs.Project.InSync
import Neogrammar.Proofs.Project.Independence
import Neogrammar.Proofs.Project.Loading
import Neogrammar.Proofs.Project.Lookup
import Neogrammar.Proofs.Project.Misfits
import Neogrammar.Proofs.Project.Modes
import Neogrammar.Proofs.Project.Raised
import Neogrammar.Proofs.Project.Report
import Neogrammar.Proofs.Project.Rooted
import Neogrammar.Proofs.Project.Roster
import Neogrammar.Proofs.Project.Storing
import Neogrammar.Proofs.Project.Textual
import Neogrammar.Proofs.Project.Torn
import Neogrammar.Proofs.Project.Usable
import Neogrammar.Proofs.Request.Answered
import Neogrammar.Proofs.Request.Checked
import Neogrammar.Proofs.Request.Failures
import Neogrammar.Proofs.Request.Foreseen
import Neogrammar.Proofs.Request.InPlace
import Neogrammar.Proofs.Request.Lines
import Neogrammar.Proofs.Request.Misfits
import Neogrammar.Proofs.Request.Modes
import Neogrammar.Proofs.Request.Rechecks
import Neogrammar.Proofs.Request.References
import Neogrammar.Proofs.Request.SelfDescent
import Neogrammar.Proofs.Request.Spellings
import Neogrammar.Proofs.Request.Texts
import Neogrammar.Proofs.SoundChange.Bare
import Neogrammar.Proofs.SoundChange.Classes
import Neogrammar.Proofs.SoundChange.Compile
import Neogrammar.Proofs.SoundChange.Erasure
import Neogrammar.Proofs.SoundChange.Footprint
import Neogrammar.Proofs.SoundChange.Literal
import Neogrammar.Proofs.SoundChange.Outcome
import Neogrammar.Proofs.SoundChange.Outside
import Neogrammar.Proofs.SoundChange.Refused
import Neogrammar.Proofs.SoundChange.Shift
