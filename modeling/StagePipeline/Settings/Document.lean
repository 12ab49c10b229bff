import StagePipeline.Settings
import StagePipeline.Toml.Document

/-!
# Settings documents

Settings read strictly from a TOML document: every value must have the type of
its field.  Fields that are not given have their standard values, and other keys
do not count.  A reader takes the document apart and says what has which type.
-/

namespace StagePipeline
namespace Settings

/-- A natural number in a document. -/
def naturalValue? : Toml.Value → Option Nat
  | .integer value => if 0 ≤ value then some value.toNat else none
  | _ => none

/-- A text in a document. -/
def textValue? : Toml.Value → Option String
  | .string value => some value
  | _ => none

/-- The value of a field: the one given, if it has the right type, and else the
standard one. -/
def fieldValue? (read? : Toml.Value → Option α) (standard : α) (field : Field)
    (table : Toml.Table) : Option α :=
  match Entries.find? field.key table with
  | none => some standard
  | some value => read? value

/-- Accept settings in range. -/
def checked (settings : Settings) : Except Fault Settings := do
  settings.validate
  return settings

/-- A strict reader of documents. -/
structure Reader where
  /-- The table of a document. -/
  parse? : String → Option Toml.Table
  /-- A value that is a natural number. -/
  natural? : Toml.Value → Option Nat
  /-- A value that is a text. -/
  text? : Toml.Value → Option String

namespace Reader

/-- The settings in a table, if all types are right. -/
def ofTable? (reader : Reader) (table : Toml.Table) : Option Settings := do
  return {
    batchSize := ← fieldValue? reader.natural? standard.batchSize .batchSize table
    mailboxCapacity :=
      ← fieldValue? reader.natural? standard.mailboxCapacity .mailboxCapacity table
    drainTimeout := ← fieldValue? reader.natural? standard.drainTimeout .drainTimeout table
    stageTimeout :=
      ← fieldValue? (fun value => (reader.natural? value).map some) standard.stageTimeout
        .stageTimeout table
    threadNamePrefix :=
      ← fieldValue? reader.text? standard.threadNamePrefix .threadNamePrefix table }

/-- Read a document.  What is wrong with the document comes before what is wrong
with the settings. -/
def ofDocument (reader : Reader) (document : String) : Except Fault Settings :=
  match (reader.parse? document).bind reader.ofTable? with
  | none => .error .unreadableDocument
  | some settings => settings.checked

/-- The reader that is used where no other one is named. -/
def usual : Reader :=
  ⟨Toml.parse?, naturalValue?, textValue?⟩

end Reader

/-- The settings in a table, as the usual reader takes them. -/
def ofTable? (table : Toml.Table) : Option Settings :=
  Reader.usual.ofTable? table

/-- Read a document with the usual reader. -/
def ofDocument (document : String) : Except Fault Settings :=
  Reader.usual.ofDocument document

end Settings
end StagePipeline
