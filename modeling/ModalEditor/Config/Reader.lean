import ModalEditor.Config.Basic
import ModalEditor.Text.Quoted

/-! # Reading settings

Settings are read from a value made of names and values. Names that are not known are passed over
and settings that are not given keep their defaults. The mode is read before the separators.
-/

namespace ModalEditor

inductive Value where
  | null
  | boolean (b : Bool)
  | integer (n : Int)
  | text (text : Text)
  | sequence
  | map (fields : List (Text × Value))
  deriving Inhabited

namespace Value

def describe : Value → Text
  | null => "null".toList
  | boolean b => "boolean `".toList ++ (if b then "true" else "false").toList ++ ['`']
  | integer n => "integer `".toList ++ n.repr.toList ++ ['`']
  | text t => "string ".toList ++ t.quote
  | sequence => "sequence".toList
  | map _ => "map".toList

def field? (name : Text) (fields : List (Text × Value)) : Option Value :=
  fields.lookup name

end Value

inductive ConfigError where
  | notAMap (found : Value)
  | modeNotText (found : Value)
  | unknownMode (name : Text)
  | separatorsNotText (found : Value)

def ConfigError.message : ConfigError → Text
  | notAMap found => mismatch found "struct EngineConfig"
  | modeNotText found => mismatch found "string or map"
  | unknownMode name =>
    "unknown variant `".toList ++ name ++ "`, expected `normal` or `insert`".toList
  | separatorsNotText found => mismatch found "a string"
where
  mismatch (found : Value) (expected : String) : Text :=
    "invalid type: ".toList ++ found.describe ++ ", expected ".toList ++ expected.toList

namespace Config

def modeName : Mode → Text
  | .normal => "normal".toList
  | .insert => "insert".toList

def readMode : Value → Except ConfigError Mode
  | .text name =>
    if name = modeName .normal then .ok .normal
    else if name = modeName .insert then .ok .insert
    else .error (.unknownMode name)
  | found => .error (.modeNotText found)

def readSeparators : Value → Except ConfigError Separators
  | .text text => .ok text
  | found => .error (.separatorsNotText found)

/-- Reads a setting that keeps its default if it is not given. -/
def readField {α : Type} (read : Value → Except ConfigError α) (name : String) (standard : α)
    (fields : List (Text × Value)) : Except ConfigError α :=
  match Value.field? name.toList fields with
  | none => .ok standard
  | some found => read found

def read : Value → Except ConfigError Config
  | .map fields => do
    let initialMode ← readField readMode "initial_mode" Mode.normal fields
    let separators ← readField readSeparators "word_separators" Separators.standard fields
    return { initialMode, separators }
  | found => .error (.notAMap found)

end Config

end ModalEditor
