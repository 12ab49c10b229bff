import StagePipeline.Settings.Document
import StagePipeline.Settings.KeyPath

/-!
# Loading settings

Settings are loaded from a file and from the environment, which is laid over the file.
Every field has one source: the environment if it names the field, else the file if it
does, else the standard value.  A library reads the file and the variables, merges what
they say, and converts values to the types of the fields.  What is asked of it, in which
order, and what becomes of its answers is the same with every library.
-/

namespace StagePipeline
namespace Settings

/-- A layer gives values to keys, in which upper and lower case are the same. -/
abbrev Layer := List (String × Value)

/-- A file of settings: its name, and its content if it exists. -/
structure File where
  name : String
  content? : Option String

/-! ## Variables -/

namespace Layer

/-- Variables that begin like this belong to the environment layer. -/
def variableMark : String := "tallyio_pipeline__"

/-- The key path with a point for every two underscores. -/
def nestedKey : List Char → List Char
  | '_' :: '_' :: rest => '.' :: nestedKey rest
  | first :: rest => first :: nestedKey rest
  | [] => []

/-- The key that a variable sets, if it belongs to the layer. -/
def variableKey? (name : String) : Option String :=
  let lower := (Text.lowerCase name).toList
  let mark := variableMark.toList
  if mark.isPrefixOf lower then some (String.ofList (nestedKey (lower.drop mark.length)))
  else none

/-- The variables of an environment that count, in its order, each as an entry of a layer. -/
def ofVariables (ofText : String → Value) (environment : List (String × String)) : Layer :=
  environment.filterMap fun (name, text) => (variableKey? name).map fun key => (key, ofText text)

end Layer

/-! ## Libraries -/

/-- A library of layered settings. -/
structure Library where
  /-- The layer of a file, if the file can be read. -/
  fileLayer? : File → Option Layer
  /-- The layer of the variables of an environment. -/
  environmentLayer : List (String × String) → Layer
  /-- What layers say together, the last one uppermost, if every value can be set. -/
  merge? : List Layer → Option Value
  /-- The path that a key is read as. -/
  path : String → KeyPath
  /-- What the text of a variable is taken for. -/
  ofText : String → Value
  /-- A value as a natural number. -/
  word? : Value → Option Nat
  /-- A value as a natural number that may be missing. -/
  optionalWord? : Value → Option (Option Nat)
  /-- A value as a text. -/
  text? : Value → Option String

/-- The value of a field: the one given, converted, else the standard one. -/
def convert? (read? : Value → Option α) (standard : α) (field : Field) (given : Value) :
    Option α :=
  match Entries.find? field.key given.members with
  | none => some standard
  | some value => read? value

namespace Library

/-- The settings that a value holds, if all its fields can be converted. -/
def ofValue? (library : Library) (value : Value) : Option Settings := do
  return {
    batchSize := ← convert? library.word? standard.batchSize .batchSize value
    mailboxCapacity :=
      ← convert? library.word? standard.mailboxCapacity .mailboxCapacity value
    drainTimeout := ← convert? library.word? standard.drainTimeout .drainTimeout value
    stageTimeout := ← convert? library.optionalWord? standard.stageTimeout .stageTimeout value
    threadNamePrefix :=
      ← convert? library.text? standard.threadNamePrefix .threadNamePrefix value }

/-- Convert a value to settings in range.  What cannot be converted comes before what
is out of range. -/
def ofLayers (library : Library) (value : Value) : Except Fault Settings :=
  match library.ofValue? value with
  | none => .error .unreadableLayers
  | some settings => settings.checked

/-- The layer of a file, if the file can be read; without a file it is empty. -/
def lowerLayer? (library : Library) : Option File → Option Layer
  | none => some []
  | some file => library.fileLayer? file

/-- Load settings from a file, if one is given, and from the variables of an
environment.  There is no answer if the file can be read but a value cannot be
set. -/
def load? (library : Library) (file? : Option File) (environment : List (String × String)) :
    Option (Except Fault Settings) :=
  match library.lowerLayer? file? with
  | none => some (.error .unreadableLayers)
  | some layer =>
      (library.merge? [layer, library.environmentLayer environment]).map library.ofLayers

end Library
end Settings
end StagePipeline
