import BorrowFlow.DataType

/-!
# Configuration

What the host lets the user's programs do, and what inference is asked to do beyond its task. By
default everything is switched on.
-/

namespace BorrowFlow

structure Features where
  vectors : Bool := true
  iterators : Bool := true
  options : Bool := true
  cells : Bool := true
  deriving DecidableEq

structure InsertionOptions where
  /-- Feed values that a terminated lifetime hands back, and that nothing uses, into drop nodes. -/
  insertImplicitDrops : Bool := true
  deriving DecidableEq

structure Config where
  features : Features := {}
  inference : InsertionOptions := {}
  deriving DecidableEq

/-- Whether values made by the constructor may be used. The two kinds of cells have one toggle. -/
def Config.isEnabled (config : Config) : TypeConstructor → Bool
  | .vector => config.features.vectors
  | .iterator => config.features.iterators
  | .option => config.features.options
  | .lockingCell | .nonLockingCell => config.features.cells

end BorrowFlow
