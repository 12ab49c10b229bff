import StagePipeline.Json.Reader
import StagePipeline.Settings.Library

/-!
# Layered settings

A library that reads files in TOML and in JSON, sets the values of every layer one after
the other, and converts values wherever that makes sense.
-/

namespace StagePipeline
namespace Settings

/-! ## Layers -/

namespace Layer

/-- Lay a layer over a value, one key after the other, if every value can be set. -/
def overlay? (layer : Layer) (below : Value) : Option Value :=
  layer.foldlM (fun below (key, value) => KeyPath.set? value (KeyPath.ofKey key) below) below

/-- Lay layers over each other, the last one uppermost. -/
def stack? (layers : List Layer) : Option Value :=
  layers.foldlM (fun below layer => overlay? layer below) (.table [])

/-- Merge layers.  The keys of the stack are read once more: a name as a whole, now
in small letters, may be a path, which leads into what the layers say together. -/
def merge? (layers : List Layer) : Option Value :=
  (stack? layers).bind fun stacked => overlay? stacked.members (.table [])

end Layer

/-! ## Files -/

namespace File

/-- The text behind the last point of a name, if there is something in front of that
point.  Directories do not belong to the name. -/
def extension (file : File) : String :=
  let reversed := file.name.toList.reverse.takeWhile (· != '/')
  match reversed.dropWhile (· != '.') with
  | '.' :: _ :: _ => String.ofList (reversed.takeWhile (· != '.')).reverse
  | _ => ""

/-- The value of a document in one of the two formats, which the extension names. -/
def value? (extension document : String) : Option Value :=
  if extension = "toml" then
    (Toml.parse? document).bind fun table => Value.ofToml? (.table table)
  else if extension = "json" then (Json.parse? document).map Value.ofJson
  else none

/-- The layer of a file, whose content must be a table. -/
def layer? (file : File) : Option Layer :=
  match file.content?.bind (value? file.extension) with
  | some (.table members) => some members
  | _ => none

end File

/-! ## Loading -/

/-- The library that is used where no other one is named. -/
def Library.usual : Library where
  fileLayer? := File.layer?
  environmentLayer := Layer.ofVariables Value.ofVariable
  merge? := Layer.merge?
  path := KeyPath.ofKey
  ofText := Value.ofVariable
  word? := Value.word?
  optionalWord? := Value.optionalWord?
  text? := Value.text?

/-- Load settings with the usual library. -/
def load? (file? : Option File) (environment : List (String × String)) :
    Option (Except Fault Settings) :=
  Library.usual.load? file? environment

end Settings
end StagePipeline
