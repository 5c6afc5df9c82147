import BorrowFlow.Entity

/-!
# Errors as they are shown

An error report is what the user gets to see of an error: its kind, a message, the place in the
graph where it was raised, and some notes. There is no source text at this level, so places name
parts of the graph.
-/

namespace BorrowFlow

inductive ErrorKind where
  | file
  | config
  /-- The engine, or a graph that breaks the engine's contract; never the user's program. -/
  | compiler
  /-- Borrow and termination insertion disagree about a borrow group. -/
  | lifetimeTermination
  deriving DecidableEq

def ErrorKind.text : ErrorKind → String
  | .compiler => "Compiler Bug"
  | .config => "Malformed Config"
  | .file => "File Error"
  | .lifetimeTermination => "Lifetime Termination Mismatch"

/-- The part of the graph an error is about, as far as it is known. -/
structure Location where
  scope : Option ScopeId := none
  node : Option NodeId := none
  port : Option PortId := none
  deriving DecidableEq

namespace Location

def unknown : Location := {}

def ofScope (scope : ScopeId) : Location := { scope := some scope }

def ofNode (node : NodeId) : Location := { node := some node }

/-- A port whose node has not been looked up. -/
def ofPort (port : PortId) : Location := { port := some port }

def ofNodePort (node : NodeId) (port : PortId) : Location :=
  { node := some node, port := some port }

def text (location : Location) : String :=
  match (location.scope.map scopeName).toList ++ (location.node.map nodeName).toList ++
      (location.port.map portName).toList with
  | [] => "<unknown location>"
  | parts => " / ".intercalate parts

end Location

/-- Remarks that accompany an error, at most one of each kind. -/
structure ErrorNotes where
  compilationStage : Option String := none
  lifetimeHint : Option String := none
  primarySuggestion : Option String := none
  deriving DecidableEq

/-- The remarks that are present, each with its heading, ordered by heading. -/
def ErrorNotes.entries (notes : ErrorNotes) : List (String × String) :=
  (notes.compilationStage.map ("CompilationStage", ·)).toList ++
    (notes.lifetimeHint.map ("LifetimeHint", ·)).toList ++
      (notes.primarySuggestion.map ("PrimarySuggestion", ·)).toList

structure ErrorReport where
  kind : ErrorKind
  message : String
  location : Location := .unknown
  notes : ErrorNotes := {}
  deriving DecidableEq

namespace ErrorReport

/-- A file that could not be read. -/
def ofFile (path reason : String) : ErrorReport :=
  { kind := .file, message := path ++ ": " ++ reason }

def text (error : ErrorReport) : String :=
  error.kind.text ++ " at " ++ error.location.text ++ ": " ++ error.message

end ErrorReport

end BorrowFlow
