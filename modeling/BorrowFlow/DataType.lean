/-!
# Data types

The types a port of a dataflow graph can carry, and what a generic may ask of the type that is bound
to it. A type is a chain of references and unary type constructors over a basic type, or over a part
that inference could not resolve.
-/

namespace BorrowFlow

inductive TypeConstructor where
  | vector
  | iterator
  | option
  | lockingCell
  | nonLockingCell
  deriving DecidableEq

def TypeConstructor.name : TypeConstructor → String
  | .vector => "Vector"
  | .iterator => "Iterator"
  | .option => "Option"
  | .lockingCell => "LockingCell"
  | .nonLockingCell => "NonLockingCell"

def TypeConstructor.all : List TypeConstructor :=
  [.vector, .iterator, .option, .lockingCell, .nonLockingCell]

def TypeConstructor.ofName? (name : String) : Option TypeConstructor :=
  all.find? fun head => head.name = name

/-- What a generic may ask of the type that is bound to it: that its values can be duplicated, or
that they can be shown to the user. -/
inductive Constraint where
  | copy
  | display
  deriving DecidableEq

def Constraint.name : Constraint → String
  | .copy => "Copy"
  | .display => "Display"

def Constraint.ofName? (name : String) : Option Constraint :=
  [copy, display].find? fun constraint => constraint.name = name

/-- A rendered data type. `unresolved` stands where inference found nothing out: an unwired input,
or a generic that nothing constrains. -/
inductive DataType where
  | unresolved
  | void
  | bool
  | int32
  | int64
  | string
  | constructed (head : TypeConstructor) (argument : DataType)
  | reference (mutable : Bool) (referent : DataType)
  deriving DecidableEq

namespace DataType

def isReference : DataType → Bool
  | reference _ _ => true
  | _ => false

def isMutableReference : DataType → Bool
  | reference mutable _ => mutable
  | _ => false

def isResolved : DataType → Bool
  | unresolved => false
  | constructed _ argument => argument.isResolved
  | reference _ referent => referent.isResolved
  | _ => true

/-- The referent of a reference, or the type itself for owned values. -/
def underlying : DataType → DataType
  | reference _ referent => referent
  | type => type

/-- Numbers, booleans, `Void`, immutable references, and options of copyable types. -/
def isCopyable : DataType → Bool
  | bool | int32 | int64 | void => true
  | reference mutable _ => !mutable
  | constructed .option argument => argument.isCopyable
  | _ => false

/-- Numbers, booleans, strings, and references to displayable types. -/
def isDisplayable : DataType → Bool
  | bool | int32 | int64 | string => true
  | reference _ referent => referent.isDisplayable
  | _ => false

def satisfies (type : DataType) : Constraint → Bool
  | .copy => type.isCopyable
  | .display => type.isDisplayable

/-- Every constructor the type mentions, outermost first. -/
def constructors : DataType → List TypeConstructor
  | constructed head argument => head :: argument.constructors
  | reference _ referent => referent.constructors
  | _ => []

/-- The type as it is shown to the user, such as `&mut Vector<Int32>`. -/
def text : DataType → String
  | unresolved => "?"
  | void => "Void"
  | bool => "Bool"
  | int32 => "Int32"
  | int64 => "Int64"
  | string => "String"
  | constructed head argument => head.name ++ "<" ++ argument.text ++ ">"
  | reference false referent => "&" ++ referent.text
  | reference true referent => "&mut " ++ referent.text

end DataType

end BorrowFlow
