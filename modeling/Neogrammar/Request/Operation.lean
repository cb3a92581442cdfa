import Neogrammar.Language

/-!
# Operations of change requests

Every operation has a name, fields that it needs and fields that it may have.
-/
namespace Neogrammar.Request

/-- What is done to a list of rules. -/
inductive Action where
  | add
  | alter
  | insert
  | remove
  deriving DecidableEq, Repr

inductive Operation where
  | addLanguage
  | renameLanguage
  | removeLanguage
  | setAncestor
  | addPos
  | alterPos
  | removePos
  | addWord
  | alterWord
  | removeWord
  | rule (kind : RuleKind) (action : Action)
  | addCategory
  | removeCategory
  | derive
  | morph
  deriving DecidableEq, Repr

namespace Action

def name : Action → String
  | add => "add"
  | alter => "alter"
  | insert => "insert"
  | remove => "remove"

/-- The verb for an action that was done. -/
def past : Action → String
  | add => "Added"
  | alter => "Altered"
  | insert => "Inserted"
  | remove => "Removed"

end Action

namespace Operation

/-- How operations name a rule of some kind. -/
def ruleNoun : RuleKind → String
  | .surface => "surface_rule"
  | .phonetic => "phonetic_rule"
  | .soundChange => "sound_change"

def name : Operation → String
  | addLanguage => "add_language"
  | renameLanguage => "rename_language"
  | removeLanguage => "remove_language"
  | setAncestor => "set_ancestor"
  | addPos => "add_pos"
  | alterPos => "alter_pos"
  | removePos => "remove_pos"
  | addWord => "add_word"
  | alterWord => "alter_word"
  | removeWord => "remove_word"
  | rule kind action => action.name ++ "_" ++ ruleNoun kind
  | addCategory => "add_category"
  | removeCategory => "remove_category"
  | derive => "derive"
  | morph => "morph"

/-- The operations on rules of one kind. -/
def rulesOf (kind : RuleKind) : List Operation :=
  [.rule kind .add, .rule kind .alter, .rule kind .insert, .rule kind .remove]

def all : List Operation :=
  [.addLanguage, .renameLanguage, .removeLanguage, .setAncestor, .addPos, .alterPos, .removePos,
    .addWord, .alterWord, .removeWord]
    ++ rulesOf .surface ++ rulesOf .phonetic ++ [.addCategory, .removeCategory]
    ++ rulesOf .soundChange ++ [.derive, .morph]

def ofName? (s : String) : Option Operation := all.find? fun o => o.name == s

/-- The names of all operations in the order of the alphabet. -/
def sortedNames : List String := (all.map name).mergeSort fun a b => decide (a ≤ b)

/-- The fields that a rule consists of. -/
def ruleFields : RuleKind → List String
  | .soundChange => ["target", "replacement", "environment"]
  | _ => ["pattern", "replacement"]

/-- The fields that must be given. -/
def required : Operation → List String
  | addLanguage => ["name"]
  | renameLanguage => ["language", "name"]
  | removeLanguage => ["language"]
  | setAncestor => ["language"]
  | addPos => ["name", "abbr"]
  | alterPos => ["index", "name", "abbr"]
  | removePos => ["index"]
  | addWord => ["language", "mnemonic", "gloss", "pos"]
  | alterWord => ["language", "index"]
  | removeWord => ["language", "index"]
  | rule kind .add => "language" :: ruleFields kind
  | rule _ .remove => ["language", "index"]
  | rule kind _ => "language" :: "index" :: ruleFields kind
  | addCategory => ["language", "key", "content"]
  | removeCategory => ["language", "key"]
  | derive => ["language", "ancestor"]
  | morph => []

/-- The fields that may be given besides. -/
def optionalFields : Operation → List String
  | setAncestor => ["ancestor"]
  | addWord => ["note", "ancestors"]
  | alterWord => ["mnemonic", "gloss", "pos", "note", "ancestors"]
  | morph => ["language"]
  | _ => []

/-- Whether an operation brings a plain rule. -/
def bringsPlainRule : Operation → Bool
  | rule .soundChange _ => false
  | rule _ .remove => false
  | rule _ _ => true
  | _ => false

/-- Whether an operation brings a sound change. -/
def bringsSoundChange : Operation → Bool
  | rule .soundChange .remove => false
  | rule .soundChange _ => true
  | _ => false

end Operation
end Neogrammar.Request
