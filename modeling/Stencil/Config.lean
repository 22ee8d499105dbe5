import Stencil.FileSystem
import Stencil.Text.Encoding
import Stencil.Text.Upper
import Stencil.Toml.Document

/-!
# Project configuration

The configuration of a project: where its templates are, what their names end in, and how much
is logged. A configuration file has a section for each; what it does not say has a default.
-/

namespace Stencil

/-- The configuration of a project. The values of the template section are kept as the file has
them; whether they make sense shows when they are used. -/
structure Config where
  sourceDir : Toml := .string "templates"
  suffixes : List Toml := [.string ".ein"]
  level : String := "WARNING"

namespace Config

/-- The name of the configuration file. -/
def fileName : String := "ein.toml"

/-- Why a configuration file cannot be used. -/
inductive Failure where
  | unopened (failure : OpenFailure)
  | undecodable (error : Text.DecodeError)
  /-- The file is no TOML document. -/
  | malformed
  /-- A section is no table, but a value of the named type. -/
  | noSection (typeName : String)
  /-- The suffixes are no sequence, but a value of the named type. -/
  | noSequence (typeName : String)
  deriving Repr, DecidableEq

/-- The wording of a failure. -/
def Failure.message : Failure → String
  | unopened failure => failure.message
  | undecodable error => error.message
  | malformed => "the file is no TOML document"
  | noSection typeName => "'" ++ typeName ++ "' object has no attribute 'get'"
  | noSequence typeName => "'" ++ typeName ++ "' object is not iterable"

/-- The members of a value: the items of an array, the characters of a string, the keys of a
table. -/
def members : Toml → Except Failure (List Toml)
  | .array items => .ok items
  | .string s => .ok (s.toList.map fun c => .string (String.ofList [c]))
  | .table entries => .ok (entries.map fun e => .string e.1)
  | v => .error (.noSequence v.typeName)

/-- The entries of a section, if the document has it. -/
def sectionEntries (document : Toml.Table) (name : String) :
    Except Failure (Option Toml.Table) :=
  match document.lookup name with
  | none => .ok none
  | some (.table entries) => .ok (some entries)
  | some v => .error (.noSection v.typeName)

/-- The configuration that a document describes. -/
def ofDocument (document : Toml.Table) : Except Failure Config := do
  let mut config : Config := {}
  if let some templates := ← sectionEntries document "templates" then
    let suffixes ← match templates.lookup "suffixes" with
      | some v => members v
      | none => pure config.suffixes
    config := { config with
      sourceDir := (templates.lookup "source_dir").getD config.sourceDir, suffixes }
  if let some log := ← sectionEntries document "log" then
    if let some level := log.lookup "level" then
      config := { config with level := Text.upper level.text }
  return config

/-- The configuration that the bytes of a file describe. -/
def ofBytes (bytes : List UInt8) : Except Failure Config :=
  match Text.Encoding.utf8.decodeAll bytes with
  | .error e => .error (.undecodable e)
  | .ok cs =>
    match Toml.parse cs with
    | none => .error .malformed
    | some document => ofDocument document

end Config

end Stencil
