/-!
# Phases of inference

Inference over one graph runs three passes and then reports. Each of these steps is admitted in
exactly one phase, and each pass leads to the next phase.
-/

namespace BorrowFlow

/-- How far inference has got through one graph. -/
inductive Phase where
  | notStarted
  | facadesConstructed
  | edgesUnified
  | borrowsInserted
  deriving DecidableEq

def Phase.name : Phase → String
  | .notStarted => "NotStarted"
  | .facadesConstructed => "FacadesConstructed"
  | .edgesUnified => "EdgesUnified"
  | .borrowsInserted => "BorrowsInserted"

/-- The steps of inference: three passes over the graph, then the report. -/
inductive Step where
  | facing
  | unifying
  | inserting
  | reporting
  deriving DecidableEq

namespace Step

def name : Step → String
  | facing => "Facade construction"
  | unifying => "Edge unification"
  | inserting => "Borrow insertion"
  | reporting => "Reporting"

/-- The only phase in which the step may run. -/
def requires : Step → Phase
  | facing => .notStarted
  | unifying => .facadesConstructed
  | inserting => .edgesUnified
  | reporting => .borrowsInserted

end Step

end BorrowFlow
