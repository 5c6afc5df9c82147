import BorrowFlow.Config.Basic
import BorrowFlow.Message.Fault
import BorrowFlow.Toml.Document

/-!
# Reading a configuration

A configuration is written as a TOML document with the tables `features` and `inference`. What is
not set keeps its default, and what is not known is refused.
-/

namespace BorrowFlow

def Toml.Value.boolean? : Toml.Value → Option Bool
  | .boolean value => some value
  | _ => none

def Features.set (features : Features) : String → Bool → Option Features
  | "vectors", value => some { features with vectors := value }
  | "iterators", value => some { features with iterators := value }
  | "options", value => some { features with options := value }
  | "cells", value => some { features with cells := value }
  | _, _ => none

def Features.names : List String := ["vectors", "iterators", "options", "cells"]

def InsertionOptions.set (options : InsertionOptions) : String → Bool → Option InsertionOptions
  | "insert_implicit_drops", value => some { options with insertImplicitDrops := value }
  | _, _ => none

def InsertionOptions.names : List String := ["insert_implicit_drops"]

/--
The settings that a value makes: those of a table by their names, those of an array by their
positions. What follows the last position of an array is not looked at.
-/
def Toml.Value.settings? (names : List String) : Toml.Value → Option (List (String × Bool))
  | .table _ entries => entries.mapM fun (name, value) => do some (name, ← value.boolean?)
  | .array items => (names.zip items).mapM fun (name, value) => do some (name, ← value.boolean?)
  | _ => none

def Config.adopt (config : Config) : String × Toml.Value → Option Config
  | ("features", value) => do
    let settings ← value.settings? Features.names
    let features ← settings.foldlM (fun features (name, on) => features.set name on) config.features
    some { config with features }
  | ("inference", value) => do
    let settings ← value.settings? InsertionOptions.names
    let inference ← settings.foldlM (fun options (name, on) => options.set name on) config.inference
    some { config with inference }
  | _ => none

/-- The configuration that a TOML document describes. -/
def Config.ofToml (text : String) : Except Fault Config :=
  match Toml.document? text >>= fun entries => entries.foldlM Config.adopt {} with
  | some config => .ok config
  | none => .error .malformedConfig

/-- The configuration in a file, of which the content is given if the path leads to a file. -/
def Config.ofFile (path : String) : Option ByteArray → Except Fault Config
  | none => .error (.unreadableConfig path (.ofPath path))
  | some content =>
    match String.fromUTF8? content with
    | some text => Config.ofToml text
    | none => .error (.unreadableConfig path .notText)

end BorrowFlow
