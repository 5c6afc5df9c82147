/-!
# The numbered parts of a dataflow graph

Scopes, nodes, ports and wires are numbered from zero in the order they are created, and nothing is
ever removed, so a number names the same part for as long as the graph lives.
-/

namespace BorrowFlow

abbrev ScopeId := Nat

abbrev NodeId := Nat

abbrev PortId := Nat

abbrev WireId := Nat

def scopeName (scope : ScopeId) : String := s!"scope{scope}"

def nodeName (node : NodeId) : String := s!"node{node}"

def portName (port : PortId) : String := s!"port{port}"

def wireName (wire : WireId) : String := s!"wire{wire}"

/-- Which way values cross a port, or a border node between a structure and its surroundings. -/
inductive Direction where
  | input
  | output
  deriving DecidableEq

end BorrowFlow
